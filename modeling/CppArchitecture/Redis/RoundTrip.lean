import CppArchitecture.Redis.Basic

/-!
# Reading what has been put

A value that has been put into a stream is read from it, and no more than that, if its simple
strings have no line feed, its bulk strings are not empty, and it is not too large. In all the other
cases the reading goes wrong: behind an empty bulk string its line break is left in the stream, and
an integer of more than 64 bits is put as another one.
-/

namespace Redis

open Core

namespace Deserialization

variable {L : Limits} {r v : List UInt8} {s t : IStream UInt8} {z : ℤ} {m : Marker}

/-! ### Single steps -/

lemma getMark_char : getMark.run ⟨m.char :: r, true⟩ = .ok m ⟨r, true⟩ := by
  cases m <;> rfl

lemma getMark_cr : ∃ e t, getMark.run ⟨crlf ++ r, true⟩ = .error e t := ⟨_, _, rfl⟩

lemma getline_crlf (hv : lf ∉ v) :
    getline.run ⟨v ++ (crlf ++ r), true⟩ = .ok (v ++ [cr]) ⟨r, true⟩ := by
  have hline : lf ∉ v ++ [cr] := by
    rw [List.mem_append, not_or]
    exact ⟨hv, by decide⟩
  have hget : (IStream.mk (v ++ (crlf ++ r)) true).getline lf = (v ++ [cr], ⟨r, true⟩) := by
    have hrest : v ++ (crlf ++ r) = (v ++ [cr]) ++ lf :: r := by simp [crlf]
    rw [hrest]
    exact IStream.getline_append hline
  change (match (IStream.mk (v ++ (crlf ++ r)) true).getline lf with
    | (line, t) => EStateM.Result.ok line t) = _
  rw [hget]

lemma getString_crlf (hv : lf ∉ v) : getString.run ⟨v ++ (crlf ++ r), true⟩ = .ok v ⟨r, true⟩ := by
  rw [getString, run_bind_of_ok (getline_crlf hv), if_neg (by simp), List.dropLast_concat]
  rfl

lemma getInteger_crlf (hz : -2 ^ 63 ≤ z ∧ z < 2 ^ 63) :
    getInteger.run ⟨decimal z ++ (crlf ++ r), true⟩ = .ok z ⟨r, true⟩ := by
  have hline : lf ∉ decimal z := notMem_decimal rfl (by decide)
  have hstoll : stoll (decimal z ++ [cr]) = .ok z := by
    rw [stoll_decimal z fun c hc => by cases hc; rfl, if_neg (by omega)]
  rw [getInteger, run_bind_of_ok (getline_crlf hline), hstoll]
  rfl

/-- A number that is too large is not read. -/
lemma getInteger_too_large (hz : 2 ^ 63 ≤ z) :
    ∃ e t, getInteger.run ⟨decimal z ++ (crlf ++ r), true⟩ = .error e t := by
  have hline : lf ∉ decimal z := notMem_decimal rfl (by decide)
  have hstoll : stoll (decimal z ++ [cr]) = .error .outOfRange := by
    rw [stoll_decimal z fun c hc => by cases hc; rfl, if_pos (.inr hz)]
  rw [getInteger, run_bind_of_ok (getline_crlf hline), hstoll]
  exact ⟨_, _, rfl⟩

/-! ### Bulk strings -/

lemma binaryData_none :
    (binaryData L).run ⟨decimal (-1) ++ (crlf ++ r), true⟩ = .ok none ⟨r, true⟩ := by
  rw [binaryData, run_bind_of_ok (getInteger_crlf (by decide)), readData, if_pos (by decide)]
  rfl

/-- The line break after an empty bulk string is not read. -/
lemma binaryData_nil :
    (binaryData L).run ⟨decimal 0 ++ (crlf ++ r), true⟩ = .ok (some []) ⟨r, true⟩ := by
  rw [binaryData, run_bind_of_ok (getInteger_crlf (by decide)), readData, if_neg (by decide),
    if_pos (by decide)]
  rfl

/-- `stream.read(&data_[0], length)` -/
lemma read_append : (modifyGet (IStream.read v.length) : Reader (List UInt8)).run ⟨v ++ r, true⟩ =
    .ok v ⟨r, true⟩ := by
  change (match (IStream.mk (v ++ r) true).read v.length with
    | (data, t) => EStateM.Result.ok data t) = _
  rw [IStream.read_append]

lemma binaryData_some (hne : v ≠ []) (hlength : v.length ≤ L.bytes) :
    (binaryData L).run ⟨decimal v.length ++ (crlf ++ (v ++ (crlf ++ r))), true⟩ =
      .ok (some v) ⟨r, true⟩ := by
  have hpos := List.length_pos_iff.mpr hne
  have hbytes := L.bytes_lt
  have hline : getline.run ⟨crlf ++ r, true⟩ = .ok [cr] ⟨r, true⟩ :=
    getline_crlf (v := []) List.not_mem_nil
  rw [binaryData, run_bind_of_ok (getInteger_crlf (by omega)), readData, if_neg (by omega),
    if_neg (by omega), if_neg (by omega), Int.toNat_natCast, run_bind_of_ok read_append,
    run_bind_of_ok hline]
  simp

/-- A bulk string that is too long is not read. -/
lemma binaryData_too_long (hlength : L.bytes < v.length) :
    ∃ e t, (binaryData L).run ⟨decimal v.length ++ (crlf ++ r), true⟩ = .error e t := by
  by_cases hlarge : 2 ^ 63 ≤ (v.length : ℤ)
  · obtain ⟨e, t, herror⟩ := getInteger_too_large (r := r) hlarge
    exact ⟨e, t, run_bind_of_error herror⟩
  · rw [binaryData, run_bind_of_ok (getInteger_crlf (by omega)), readData, if_neg (by omega),
      if_neg (by omega), if_pos (by omega)]
    exact ⟨_, _, rfl⟩

end Deserialization

/-! ### Values -/

namespace Serialization

/-- A bulk string that can be read back. -/
def SoundBulk (L : Deserialization.Limits) : Option (List UInt8) → Prop
  | none => True
  | some value => value ≠ [] ∧ value.length ≤ L.bytes

mutual

/-- A value that can be read back with room for so many calls. -/
def Sound (L : Deserialization.Limits) : Item → ℕ → Prop
  | _, 0 => False
  | .simpleString value, _ + 1 => lf ∉ value
  | .errorMessage value, _ + 1 => lf ∉ value
  | .integer value, _ + 1 => -2 ^ 63 ≤ value ∧ value < 2 ^ 63
  | .bulkString value, _ + 1 => SoundBulk L value
  | .binaryData data, _ + 1 => SoundBulk L data
  | .null, _ + 1 => True
  | .array values, frames + 1 =>
    isNull values = true ∨ values.length ≤ L.items ∧ SoundAll L values frames

def SoundAll (L : Deserialization.Limits) : List Item → ℕ → Prop
  | [], _ => True
  | value :: values, frames => Sound L value frames ∧ SoundAll L values frames

end

mutual

/-- The value that is to be read back. -/
def denote : Item → Deserialization.Item
  | .simpleString value => .simpleString value
  | .errorMessage value => .errorMessage value
  | .integer value => .integer value
  | .bulkString value => .bulkString value
  | .binaryData data => .bulkString data
  | .null => .bulkString none
  | .array values => .array (if isNull values then none else some (denoteAll values))

def denoteAll : List Item → List Deserialization.Item
  | [] => []
  | value :: values => denote value :: denoteAll values

end

end Serialization

open Serialization Deserialization

variable {α β : Type} {L : Limits} {sound : Prop} {reader : Reader α} {bytes r v : List UInt8}
  {a : α}
  {s t : IStream UInt8} {frames : ℕ}

/-- The reading of some bytes comes to the value if that is sound, and to nothing more. If it is not
sound, and the reading comes to it nevertheless, then a line break is left behind. -/
def ReadsBack (sound : Prop) (reader : Reader α) (bytes : List UInt8) (a : α) : Prop :=
  ∀ r, (sound → reader.run ⟨bytes ++ r, true⟩ = .ok a ⟨r, true⟩) ∧
    (¬ sound → ∀ t, reader.run ⟨bytes ++ r, true⟩ = .ok a t → t = ⟨crlf ++ r, true⟩)

lemma ReadsBack.of_sound (h : ∀ r, reader.run ⟨bytes ++ r, true⟩ = .ok a ⟨r, true⟩) :
    ReadsBack True reader bytes a :=
  fun r => ⟨fun _ => h r, fun hsound => absurd trivial hsound⟩

/-- Reading that ends with a constructor. -/
lemma ReadsBack.map (h : ReadsBack sound reader bytes a) {f : α → β}
    (hf : Function.Injective f) : ReadsBack sound (reader >>= fun a => pure (f a)) bytes (f a) := by
  refine fun r => ⟨fun hsound => ?_, fun hsound t hrun => ?_⟩
  · rw [run_bind_of_ok ((h r).1 hsound)]
    rfl
  · obtain ⟨b, u, hb, hpure⟩ := run_bind_eq_ok.mp hrun
    have hok : EStateM.Result.ok (f b) u = (.ok (f a) t : EStateM.Result Error _ _) := hpure
    injection hok with hvalue hstream
    rw [hf hvalue, hstream] at hb
    exact (h r).2 hsound t hb

/-- Reading that begins with a marker. -/
lemma ReadsBack.mark {f : Marker → Reader α} {m : Marker} (h : ReadsBack sound (f m) bytes a) :
    ReadsBack sound (getMark >>= f) (m.char :: bytes) a := by
  intro r
  have hmark : (getMark >>= f).run ⟨m.char :: bytes ++ r, true⟩ = (f m).run ⟨bytes ++ r, true⟩ :=
    run_bind_of_ok getMark_char
  rw [hmark]
  exact h r

/-- A string that has been read has no line feed in it. -/
lemma notMem_getString (h : getString.run s = .ok v t) : lf ∉ v := by
  obtain ⟨line, u, hline, hrun⟩ := run_bind_eq_ok.mp h
  have hnot : lf ∉ line := by
    have hget : EStateM.Result.ok (s.getline lf).1 (s.getline lf).2 =
      (.ok line u : EStateM.Result Error _ _) := hline
    cases hget
    exact IStream.notMem_getline s
  split_ifs at hrun with hnil
  · cases hrun
  · have hok : EStateM.Result.ok line.dropLast u = (.ok v t : EStateM.Result Error _ _) := hrun
    injection hok with hvalue _
    rw [← hvalue]
    exact fun hmem => hnot (List.dropLast_subset _ hmem)

lemma readsBack_string (v : List UInt8) : ReadsBack (lf ∉ v) getString (v ++ crlf) v := by
  intro r
  rw [List.append_assoc]
  exact ⟨fun hv => getString_crlf hv, fun hv t hrun => absurd (notMem_getString hrun) hv⟩

/-- An integer is put as the one of 64 bits that it is congruent to. -/
lemma readsBack_integer (z : ℤ) : ReadsBack (-2 ^ 63 ≤ z ∧ z < 2 ^ 63) getInteger
    (decimal (z.bmod (2 ^ 64)) ++ crlf) z := by
  have hrange : -2 ^ 63 ≤ z.bmod (2 ^ 64) ∧ z.bmod (2 ^ 64) < 2 ^ 63 :=
    ⟨Int.le_bmod (by decide), Int.bmod_lt (by decide)⟩
  intro r
  rw [List.append_assoc]
  refine ⟨fun hz => ?_, fun hz t hrun => ?_⟩
  · have hsame : z.bmod (2 ^ 64) = z := Int.bmod_eq_of_le hz.1 hz.2
    rw [hsame]
    exact getInteger_crlf hz
  · -- what is read is in the range, `z` is not
    rw [getInteger_crlf hrange] at hrun
    injection hrun with hvalue _
    rw [hvalue] at hrange
    exact absurd hrange hz

lemma readsBack_bulk (v : Option (List UInt8)) :
    ReadsBack (SoundBulk L v) (binaryData L) (putBulk v).tail v := by
  intro r
  match v with
  | none =>
    refine ⟨fun _ => ?_, fun hv => absurd trivial hv⟩
    rw [putBulk, List.tail_cons, List.append_assoc]
    exact binaryData_none
  | some v =>
    simp only [putBulk, List.tail_cons, List.append_assoc]
    by_cases hnil : v = []
    · -- the line break behind the string is left
      subst hnil
      refine ⟨fun hv => absurd rfl hv.1, fun _ t hrun => ?_⟩
      have hread : (binaryData L).run ⟨decimal 0 ++ (crlf ++ (crlf ++ r)), true⟩ =
        .ok (some []) ⟨crlf ++ r, true⟩ := binaryData_nil
      have heq := hread.symm.trans hrun
      cases heq
      rfl
    · refine ⟨fun hv => binaryData_some hnil hv.2, fun hv t hrun => ?_⟩
      have hlong : L.bytes < v.length := by
        by_contra hle
        exact hv ⟨hnil, Nat.not_lt.mp hle⟩
      obtain ⟨e, u, herror⟩ := binaryData_too_long (r := v ++ (crlf ++ r)) hlong
      rw [herror] at hrun
      cases hrun

/-! ### Items -/

/-- A value behind a line break is not read. -/
lemma item_crlf : ∃ e t, (item L frames).run ⟨crlf ++ r, true⟩ = .error e t := by
  cases frames with
  | zero => exact ⟨_, _, rfl⟩
  | succ frames =>
    obtain ⟨e, t, hmark⟩ := getMark_cr (r := r)
    exact ⟨e, t, run_bind_of_error hmark⟩

/-- One value more to read. -/
lemma ReadsBack.cons {rest : Prop} {n : ℕ} {bytes' : List UInt8} {as : List α}
    (h : ReadsBack sound reader bytes a) (hrest : ReadsBack rest (items reader n) bytes' as)
    (hcrlf : ∀ r, ∃ e t, reader.run ⟨crlf ++ r, true⟩ = .error e t)
    (hnil : n = 0 → bytes' = []) :
    ReadsBack (sound ∧ rest) (items reader (n + 1)) (bytes ++ bytes') (a :: as) := by
  intro r
  rw [items, List.append_assoc]
  refine ⟨fun ⟨hsound, hsounds⟩ => ?_, fun hsound t hrun => ?_⟩
  · rw [run_bind_of_ok ((h _).1 hsound), run_bind_of_ok ((hrest r).1 hsounds)]
    rfl
  · obtain ⟨b, u, hb, hrun⟩ := run_bind_eq_ok.mp hrun
    obtain ⟨bs, w, hbs, hpure⟩ := run_bind_eq_ok.mp hrun
    have hok : EStateM.Result.ok (b :: bs) w =
      (.ok (a :: as) t : EStateM.Result Error _ _) := hpure
    injection hok with hvalue hstream
    obtain ⟨rfl, rfl⟩ := List.cons.inj hvalue
    subst hstream
    by_cases hfirst : sound
    · -- one of the others is not sound
      rw [(h (bytes' ++ r)).1 hfirst] at hb
      cases hb
      exact (hrest r).2 (fun hsounds => hsound ⟨hfirst, hsounds⟩) w hbs
    · -- the line break that is left behind is no value
      have hu := (h (bytes' ++ r)).2 hfirst u hb
      subst hu
      cases n with
      | zero =>
        have hok : EStateM.Result.ok [] ⟨crlf ++ (bytes' ++ r), true⟩ =
          (.ok bs w : EStateM.Result Error (IStream UInt8) (List α)) := hbs
        injection hok with _ hstream
        rw [← hstream, hnil rfl, List.nil_append]
      | succ n =>
        obtain ⟨e, v, herror⟩ := hcrlf (bytes' ++ r)
        rw [items, run_bind_of_error herror] at hbs
        cases hbs

lemma readsBack_null {it : Reader Deserialization.Item} :
    ReadsBack True (array L it) (decimal (-1) ++ crlf) none := by
  refine .of_sound fun r => ?_
  rw [List.append_assoc, array, run_bind_of_ok (getInteger_crlf (by decide)), readItems,
    if_pos (by decide)]
  rfl

lemma readsBack_array {it : Reader Deserialization.Item} {xs : List Serialization.Item}
    (hxs : ReadsBack sound (items it xs.length) (putAll xs) (denoteAll xs))
    (hnil : xs = [] → sound) :
    ReadsBack (xs.length ≤ L.items ∧ sound) (array L it) (decimal xs.length ++ crlf ++ putAll xs)
      (some (denoteAll xs)) := by
  intro r
  have hitems := L.items_lt
  rw [List.append_assoc, List.append_assoc]
  by_cases hlong : L.items < xs.length
  · -- there is no room for so many, or their number is not even read
    refine ⟨fun h => absurd h.1 (Nat.not_le.mpr hlong), fun _ t hrun => ?_⟩
    by_cases hlarge : 2 ^ 63 ≤ (xs.length : ℤ)
    · obtain ⟨e, u, herror⟩ := getInteger_too_large (r := putAll xs ++ r) hlarge
      rw [array, run_bind_of_error herror] at hrun
      cases hrun
    · rw [array, run_bind_of_ok (getInteger_crlf (by omega)), readItems, if_neg (by omega),
        if_neg (by omega),
        if_pos (by omega)] at hrun
      cases hrun
  · by_cases hempty : xs = []
    · subst hempty
      refine ⟨fun _ => ?_, fun h => absurd ⟨Nat.zero_le _, hnil rfl⟩ h⟩
      rw [array, run_bind_of_ok (getInteger_crlf (by decide)), readItems, if_neg (by decide),
        if_pos (by decide)]
      rfl
    · have hpos := List.length_pos_iff.mpr hempty
      have hread : (array L it).run ⟨decimal xs.length ++ (crlf ++ (putAll xs ++ r)), true⟩ =
          (items it xs.length >>= fun ys => pure (some ys)).run ⟨putAll xs ++ r, true⟩ := by
        rw [array, run_bind_of_ok (getInteger_crlf (by omega)), readItems, if_neg (by omega),
          if_neg (by omega), if_neg (by omega), Int.toNat_natCast]
      have hmap := hxs.map (Option.some_injective _) r
      rw [hread]
      exact ⟨fun h => hmap.1 h.2, fun h => hmap.2 fun hsound => h ⟨Nat.not_lt.mp hlong, hsound⟩⟩

lemma readsBack_bulkString (v : Option (List UInt8)) :
    ReadsBack (SoundBulk L v) (item L (frames + 1)) (putBulk v) (.bulkString v) := by
  have hmark : putBulk v = Marker.bulkString.char :: (putBulk v).tail := by
    cases v <;> rfl
  rw [hmark]
  exact ((readsBack_bulk v).map fun _ _ h => Deserialization.Item.bulkString.inj h).mark
    (m := .bulkString)

mutual

lemma readsBack_put (x : Serialization.Item) (frames : ℕ) :
    ReadsBack (Sound L x frames) (item L frames) (put x) (denote x) := by
  match frames with
  | 0 =>
    refine fun r => ⟨fun h => ?_, fun _ t hrun => by cases hrun⟩
    cases x <;> exact h.elim
  | frames + 1 =>
    match x with
    | .simpleString v =>
      exact ((readsBack_string v).map fun _ _ h => Deserialization.Item.simpleString.inj h).mark
        (m := .simpleString)
    | .errorMessage v =>
      exact ((readsBack_string v).map fun _ _ h => Deserialization.Item.errorMessage.inj h).mark
        (m := .errorMessage)
    | .integer z =>
      exact ((readsBack_integer z).map fun _ _ h => Deserialization.Item.integer.inj h).mark
        (m := .integer)
    | .bulkString v => exact readsBack_bulkString v
    | .binaryData v => exact readsBack_bulkString v
    | .null => exact readsBack_bulkString none
    | .array xs =>
      rw [Sound, put, denote]
      by_cases hnull : isNull xs = true
      · -- an `array<null>` is put as a null array
        rw [if_pos hnull, if_pos hnull, eq_true hnull, true_or]
        exact (readsBack_null.map fun _ _ h => Deserialization.Item.array.inj h).mark (m := .array)
      · rw [if_neg hnull, if_neg hnull, eq_false hnull, false_or]
        exact ((readsBack_array (readsBack_putAll xs frames) fun h => by rw [h]; trivial).map
          fun _ _ h => Deserialization.Item.array.inj h).mark (m := .array)

lemma readsBack_putAll (xs : List Serialization.Item) (frames : ℕ) :
    ReadsBack (SoundAll L xs frames) (items (item L frames) xs.length) (putAll xs)
      (denoteAll xs) := by
  match xs with
  | [] => exact fun r => ⟨fun _ => rfl, fun h => absurd trivial h⟩
  | x :: xs =>
    refine (readsBack_put x frames).cons (readsBack_putAll xs frames) (fun r => item_crlf) ?_
    intro hlength
    rw [List.eq_nil_of_length_eq_zero hlength, putAll]

end

end Redis
