import CppArchitecture.Core.Truncated
import CppArchitecture.Redis.RoundTrip

/-!
# What is read from any stream

Whatever characters a stream brings, a value that is read from it can be put into a stream again
and read from there, unless it has an empty bulk string in it. Where a stream ends before the value
does, the stream is not good any more; there need not be an exception, though, and the characters
that are missing from a bulk string are zeros.
-/

namespace Redis

open Core Serialization Deserialization

variable {α β : Type} {L : Limits} {reader : Reader α} {bytes r v : List UInt8} {a : α}
  {s t : IStream UInt8} {frames : ℕ} {z : ℤ}

/-! ### Putting again what has been read -/

mutual

/-- The value that puts what has been read into a stream again. -/
def again : Deserialization.Item → Serialization.Item
  | .simpleString value => .simpleString value
  | .errorMessage value => .errorMessage value
  | .integer value => .integer value
  | .bulkString data => .bulkString data
  | .array none => .array [.null]
  | .array (some items) => .array (againAll items)
  | .null => .null

def againAll : List Deserialization.Item → List Serialization.Item
  | [] => []
  | x :: xs => again x :: againAll xs

end

mutual

/-- There is no empty bulk string in the value. -/
def NoEmpty : Deserialization.Item → Prop
  | .bulkString data => data ≠ some []
  | .array (some items) => NoEmptyAll items
  | .simpleString _ | .errorMessage _ | .integer _ | .array none | .null => True

def NoEmptyAll : List Deserialization.Item → Prop
  | [] => True
  | x :: xs => NoEmpty x ∧ NoEmptyAll xs

end

mutual

/-- The values that come of a reading. -/
def Readable (L : Limits) : Deserialization.Item → ℕ → Prop
  | _, 0 => False
  | .simpleString value, _ + 1 => lf ∉ value
  | .errorMessage value, _ + 1 => lf ∉ value
  | .integer value, _ + 1 => -2 ^ 63 ≤ value ∧ value < 2 ^ 63
  | .bulkString none, _ + 1 => True
  | .bulkString (some data), _ + 1 => data.length ≤ L.bytes
  | .array none, _ + 1 => True
  | .array (some items), frames + 1 => items.length ≤ L.items ∧ ReadableAll L items frames
  | .null, _ + 1 => False

def ReadableAll (L : Limits) : List Deserialization.Item → ℕ → Prop
  | [], _ => True
  | x :: xs, frames => Readable L x frames ∧ ReadableAll L xs frames

end

lemma length_againAll (xs : List Deserialization.Item) : (againAll xs).length = xs.length := by
  induction xs with
  | nil => rfl
  | cons x xs ih => rw [againAll, List.length_cons, List.length_cons, ih]

/-- The values of an array that has been read are no single `null`. -/
lemma isNull_againAll {xs : List Deserialization.Item} (h : ReadableAll L xs frames) :
    isNull (againAll xs) = false := by
  match xs with
  | [] => rfl
  | x :: y :: xs => simp [againAll, isNull]
  | [.null] => cases frames <;> exact h.1.elim
  | [.array none] => rfl
  | [.simpleString _] | [.errorMessage _] | [.integer _] | [.bulkString _] | [.array (some _)] =>
    simp [againAll, again, isNull]

mutual

lemma denote_again (x : Deserialization.Item) (frames : ℕ) (h : Readable L x frames) :
    denote (again x) = x ∧ (Sound L (again x) frames ↔ NoEmpty x) := by
  match frames with
  | 0 => cases x <;> exact h.elim
  | frames + 1 =>
    match x with
    | .simpleString v => exact ⟨rfl, iff_of_true h trivial⟩
    | .errorMessage v => exact ⟨rfl, iff_of_true h trivial⟩
    | .integer z => exact ⟨rfl, iff_of_true h trivial⟩
    | .bulkString none => exact ⟨rfl, iff_of_true trivial (by simp [NoEmpty])⟩
    | .bulkString (some v) =>
      refine ⟨rfl, ?_⟩
      simp only [again, Sound, SoundBulk, NoEmpty, ne_eq, Option.some.injEq]
      exact and_iff_left h
    | .array none => exact ⟨rfl, iff_of_true (.inl rfl) trivial⟩
    | .array (some xs) =>
      obtain ⟨hxs, hxs'⟩ := denoteAll_againAll xs frames h.2
      have hnull := isNull_againAll h.2
      have hlength : (againAll xs).length ≤ L.items := (length_againAll xs).trans_le h.1
      rw [again, denote, hxs, hnull, if_neg Bool.false_ne_true, Sound, NoEmpty, hnull]
      refine ⟨rfl, ?_⟩
      simpa [hlength] using hxs'
    | .null => exact h.elim

lemma denoteAll_againAll (xs : List Deserialization.Item) (frames : ℕ)
    (h : ReadableAll L xs frames) :
    denoteAll (againAll xs) = xs ∧ (SoundAll L (againAll xs) frames ↔ NoEmptyAll xs) := by
  match xs with
  | [] => exact ⟨rfl, Iff.rfl⟩
  | x :: xs =>
    obtain ⟨hx, hx'⟩ := denote_again x frames h.1
    obtain ⟨hxs, hxs'⟩ := denoteAll_againAll xs frames h.2
    exact ⟨by rw [againAll, denoteAll, hx, hxs], and_congr hx' hxs'⟩

end

/-! ### What can be read -/

lemma getInteger_range (h : getInteger.run s = .ok z t) : -2 ^ 63 ≤ z ∧ z < 2 ^ 63 := by
  obtain ⟨line, u, _, hrun⟩ := run_bind_eq_ok.mp h
  cases hstoll : stoll line with
  | ok w =>
    rw [hstoll] at hrun
    cases hrun
    exact stoll_range hstoll
  | error e =>
    rw [hstoll] at hrun
    cases e <;> cases hrun

lemma binaryData_length (h : (binaryData L).run s = .ok (some v) t) : v.length ≤ L.bytes := by
  obtain ⟨length, u, _, hrun⟩ := run_bind_eq_ok.mp h
  rw [readData] at hrun
  split_ifs at hrun with hneg hzero hlong
  · cases hrun
  · cases hrun
    exact Nat.zero_le _
  · cases hrun
  · obtain ⟨data, u', hdata, hrun⟩ := run_bind_eq_ok.mp hrun
    obtain ⟨line, u'', _, hpure⟩ := run_bind_eq_ok.mp hrun
    have hread : EStateM.Result.ok (u.read length.toNat).1 (u.read length.toNat).2 =
      (.ok data u' : EStateM.Result Error _ _) := hdata
    injection hread with hvalue _
    have hle := IStream.length_read_le length.toNat u
    rw [hvalue] at hle
    have hok :
        EStateM.Result.ok (some (data ++ List.replicate (length.toNat - data.length) 0)) u'' =
      (.ok (some v) t : EStateM.Result Error _ _) := hpure
    injection hok with hv _
    rw [← Option.some.inj hv, List.length_append, List.length_replicate]
    omega

lemma items_forall {P : α → Prop} {count : ℕ} {xs : List α}
    (hread : ∀ s x t, reader.run s = .ok x t → P x) (h : (items reader count).run s = .ok xs t) :
    xs.length = count ∧ ∀ x ∈ xs, P x := by
  induction count generalizing s xs with
  | zero =>
    cases h
    exact ⟨rfl, fun _ hx => absurd hx List.not_mem_nil⟩
  | succ count ih =>
    obtain ⟨x, u, hx, hrun⟩ := run_bind_eq_ok.mp h
    obtain ⟨ys, u', hys, hpure⟩ := run_bind_eq_ok.mp hrun
    cases hpure
    obtain ⟨hlength, hall⟩ := ih hys
    refine ⟨by rw [List.length_cons, hlength], ?_⟩
    rintro y (_ | ⟨_, hy⟩)
    · exact hread _ _ _ hx
    · exact hall y hy

lemma readableAll_of_forall {xs : List Deserialization.Item} (h : ∀ x ∈ xs, Readable L x frames) :
    ReadableAll L xs frames := by
  induction xs with
  | nil => trivial
  | cons x xs ih =>
    exact ⟨h x List.mem_cons_self, ih fun y hy => h y (List.mem_cons_of_mem _ hy)⟩

lemma array_readable {it : Reader Deserialization.Item} {xs : List Deserialization.Item}
    (hread : ∀ s x t, it.run s = .ok x t → Readable L x frames)
    (h : (array L it).run s = .ok (some xs) t) :
    xs.length ≤ L.items ∧ ReadableAll L xs frames := by
  obtain ⟨count, u, _, hrun⟩ := run_bind_eq_ok.mp h
  rw [readItems] at hrun
  split_ifs at hrun with hneg hzero hlong
  · cases hrun
  · cases hrun
    exact ⟨Nat.zero_le _, trivial⟩
  · cases hrun
  · obtain ⟨ys, u', hys, hpure⟩ := run_bind_eq_ok.mp hrun
    have hok : EStateM.Result.ok (some ys) u' =
      (.ok (some xs) t : EStateM.Result Error _ _) := hpure
    injection hok with hvalue _
    obtain rfl := Option.some.inj hvalue
    obtain ⟨hlength, hall⟩ := items_forall hread hys
    refine ⟨?_, readableAll_of_forall hall⟩
    rw [hlength]
    omega

/-- Whatever a stream brings, what is read from it is of this kind. -/
lemma readable_of_item {x : Deserialization.Item} (h : (item L frames).run s = .ok x t) :
    Readable L x frames := by
  induction frames generalizing s x t with
  | zero => cases h
  | succ frames ih =>
    obtain ⟨m, u, _, hrun⟩ := run_bind_eq_ok.mp h
    cases m with
    | simpleString =>
      obtain ⟨v, u', hv, hpure⟩ := run_bind_eq_ok.mp hrun
      cases hpure
      exact notMem_getString hv
    | errorMessage =>
      obtain ⟨v, u', hv, hpure⟩ := run_bind_eq_ok.mp hrun
      cases hpure
      exact notMem_getString hv
    | integer =>
      obtain ⟨z, u', hz, hpure⟩ := run_bind_eq_ok.mp hrun
      cases hpure
      exact getInteger_range hz
    | bulkString =>
      obtain ⟨v, u', hv, hpure⟩ := run_bind_eq_ok.mp hrun
      cases hpure
      cases v with
      | none => trivial
      | some v => exact binaryData_length hv
    | array =>
      obtain ⟨xs, u', hxs, hpure⟩ := run_bind_eq_ok.mp hrun
      cases hpure
      cases xs with
      | none => trivial
      | some xs => exact array_readable (fun s x t hx => ih hx) hxs

/-- Whatever a stream brings: what has been read from it is read again from a stream it has been put
into, and no more than that, exactly if there is no empty bulk string in it. -/
theorem item_again_iff {x : Deserialization.Item} (h : (item L frames).run s = .ok x t)
    (r : List UInt8) :
    (item L frames).run ⟨put (again x) ++ r, true⟩ = .ok x ⟨r, true⟩ ↔ NoEmpty x := by
  obtain ⟨hdenote, hsound⟩ := denote_again x frames (readable_of_item h)
  have hreads := readsBack_put (L := L) (again x) frames r
  rw [hdenote] at hreads
  refine ⟨fun hrun => ?_, fun hne => hreads.1 (hsound.mpr hne)⟩
  by_contra hempty
  -- a line break would be left before `r`
  have hleft := hreads.2 (fun hs => hempty (hsound.mp hs)) _ hrun
  have hlength := congrArg (fun s : IStream UInt8 => s.rest.length) hleft
  simp [crlf] at hlength
  omega

theorem item_again_iff_array : ∃ x t,
    (item smallLimits 2).run ⟨put (.array [.integer 7, .null]) ++ [], true⟩ = .ok x t ∧
      ((item smallLimits 2).run ⟨put (again x) ++ crlf, true⟩ = .ok x ⟨crlf, true⟩ ↔
        NoEmpty x) := by
  have hsound : Sound smallLimits (.array [.integer 7, .null]) 2 :=
    .inr ⟨by decide, ⟨by decide, by decide⟩, trivial, trivial⟩
  have hrun := (readsBack_put (.array [.integer 7, .null]) 2 []).1 hsound
  exact ⟨_, _, hrun, item_again_iff hrun crlf⟩

/-! ### Streams that end too early -/

lemma staysEnded_getline : StaysEnded getline := by
  intro v t hrun
  cases hrun
  rfl

lemma staysEnded_readData {length : ℤ} : StaysEnded (readData L length) := by
  rw [readData]
  split_ifs
  · exact .pure _
  · exact .pure _
  · exact .throw _
  · refine StaysEnded.bind ?_ fun data => staysEnded_getline.bind fun _ => .pure _
    intro data t hrun
    cases hrun
    rfl

/-- There is no value in a stream that has ended. -/
lemma item_ended (x : Deserialization.Item) : (item L frames).run ended ≠ .ok x t := by
  intro hrun
  cases frames with
  | zero => cases hrun
  | succ frames =>
    obtain ⟨m, u, hm, _⟩ := run_bind_eq_ok.mp hrun
    cases hm

lemma staysEnded_items {count : ℕ} : StaysEnded (items (item L frames) count) := by
  cases count with
  | zero => exact .pure _
  | succ count =>
    intro xs t hrun
    obtain ⟨x, u, hx, _⟩ := run_bind_eq_ok.mp hrun
    exact absurd hx (item_ended x)

lemma staysEnded_readItems {count : ℤ} : StaysEnded (readItems L (item L frames) count) := by
  rw [readItems]
  split_ifs
  · exact .pure _
  · exact .pure _
  · exact .throw _
  · exact staysEnded_items.bind fun xs => .pure _

lemma endsEarly_getline (hv : lf ∉ v) : EndsEarly getline (v ++ crlf) := by
  intro p q hpq hq a t hrun
  have hp : lf ∉ p := by
    -- the line feed is the last character, which is missing
    obtain ⟨c, d, rfl⟩ : ∃ c d, q = c ++ [d] := ⟨_, _, (List.dropLast_append_getLast hq).symm⟩
    have hcut : p ++ c = v ++ [cr] := by
      have hlast : (p ++ c) ++ [d] = (v ++ [cr]) ++ [lf] := by simpa [crlf] using hpq
      exact (List.append_inj' hlast rfl).1
    intro hmem
    have hline : lf ∈ v ++ [cr] := hcut ▸ List.mem_append_left c hmem
    rcases List.mem_append.mp hline with hmem | hmem
    · exact hv hmem
    · exact absurd (List.mem_singleton.mp hmem) (by decide)
  have hget : EStateM.Result.ok ((IStream.mk p true).getline lf).1
    ((IStream.mk p true).getline lf).2 = (.ok a t : EStateM.Result Error _ _) := hrun
  rw [IStream.getline_of_notMem hp] at hget
  cases hget
  rfl

lemma endsEarly_getString (hv : lf ∉ v) : EndsEarly getString (v ++ crlf) := by
  refine (endsEarly_getline hv).bind fun line => ?_
  split_ifs
  · exact .throw _
  · exact .pure _

lemma endsEarly_getInteger (z : ℤ) : EndsEarly getInteger (decimal z ++ crlf) := by
  refine (endsEarly_getline (notMem_decimal rfl (by decide))).bind fun line => ?_
  rcases stoll line with e | w
  · cases e <;> exact .throw _
  · exact .pure w

lemma endsEarly_bulk {v : Option (List UInt8)} (hv : SoundBulk L v) :
    EndsEarly (binaryData L) (putBulk v).tail := by
  match v with
  | none => exact (endsEarly_getInteger (-1)).bind fun _ => staysEnded_readData
  | some v =>
    have hpos := List.length_pos_iff.mpr hv.1
    have hlength := hv.2
    have hbytes := L.bytes_lt
    rw [putBulk, List.tail_cons, List.append_assoc]
    refine (endsEarly_getInteger v.length).append (a := (v.length : ℤ))
      (fun _ => staysEnded_readData) (fun r => ?_) ?_
    · rw [List.append_assoc]
      exact getInteger_crlf (by omega)
    · rw [readData, if_neg (by omega), if_neg (by omega), if_neg (by omega), Int.toNat_natCast]
      refine endsEarly_read.append (a := v) (fun data => staysEnded_getline.bind fun _ => .pure _)
        (fun r => read_append) ?_
      exact (endsEarly_getline (v := []) List.not_mem_nil).bind fun _ => .pure _

lemma endsEarly_mark (m : Marker) {f : Marker → Reader α} (h : EndsEarly (f m) bytes) :
    EndsEarly (getMark >>= f) (m.char :: bytes) := by
  intro p q hpq hq a t hrun
  cases p with
  | nil =>
    obtain ⟨m', u, hm, _⟩ := run_bind_eq_ok.mp hrun
    cases hm
  | cons c p =>
    obtain ⟨rfl, hrest⟩ := List.cons.inj hpq
    rw [run_bind_of_ok getMark_char] at hrun
    exact h p q hrest hq a t hrun

lemma endsEarly_putBulk {v : Option (List UInt8)} (hv : SoundBulk L v) :
    EndsEarly (item L (frames + 1)) (putBulk v) := by
  have hmark : putBulk v = Marker.bulkString.char :: (putBulk v).tail := by
    cases v <;> rfl
  rw [hmark]
  exact endsEarly_mark .bulkString ((endsEarly_bulk hv).bind fun _ => .pure _)

lemma endsEarly_array {xs : List Serialization.Item} (hlength : xs.length ≤ L.items)
    (hxs : EndsEarly (items (item L frames) xs.length) (putAll xs)) :
    EndsEarly (array L (item L frames)) (decimal xs.length ++ crlf ++ putAll xs) := by
  have hitems := L.items_lt
  refine (endsEarly_getInteger xs.length).append (a := (xs.length : ℤ))
    (fun _ => staysEnded_readItems) (fun r => ?_) ?_
  · rw [List.append_assoc]
    exact getInteger_crlf (by omega)
  · by_cases hempty : xs = []
    · subst hempty
      exact fun p q hpq hq => absurd (List.append_eq_nil_iff.mp hpq).2 hq
    · have hpos := List.length_pos_iff.mpr hempty
      rw [readItems, if_neg (by omega), if_neg (by omega), if_neg (by omega), Int.toNat_natCast]
      exact hxs.bind fun _ => .pure _

mutual

lemma endsEarly_put (x : Serialization.Item) (frames : ℕ) (h : Sound L x frames) :
    EndsEarly (item L frames) (put x) := by
  match frames with
  | 0 => cases x <;> exact h.elim
  | frames + 1 =>
    match x with
    | .simpleString v =>
      exact endsEarly_mark .simpleString ((endsEarly_getString h).bind fun _ => .pure _)
    | .errorMessage v =>
      exact endsEarly_mark .errorMessage ((endsEarly_getString h).bind fun _ => .pure _)
    | .integer z => exact endsEarly_mark .integer ((endsEarly_getInteger _).bind fun _ => .pure _)
    | .bulkString v => exact endsEarly_putBulk h
    | .binaryData v => exact endsEarly_putBulk h
    | .null => exact endsEarly_putBulk (v := none) trivial
    | .array xs =>
      rw [put]
      split_ifs with hnull
      · -- an `array<null>` has no items to be read
        exact endsEarly_mark .array
          (((endsEarly_getInteger (-1)).bind fun _ => staysEnded_readItems).bind fun _ => .pure _)
      · obtain ⟨hlength, hsounds⟩ := h.resolve_left hnull
        exact endsEarly_mark .array
          ((endsEarly_array hlength (endsEarly_putAll xs frames hsounds)).bind fun _ => .pure _)

lemma endsEarly_putAll (xs : List Serialization.Item) (frames : ℕ) (h : SoundAll L xs frames) :
    EndsEarly (items (item L frames) xs.length) (putAll xs) := by
  match xs with
  | [] => exact fun p q hpq hq => absurd (List.append_eq_nil_iff.mp hpq).2 hq
  | x :: xs =>
    refine (endsEarly_put x frames h.1).append (a := denote x)
      (fun _ => staysEnded_items.bind fun _ => .pure _)
      (fun r => (readsBack_put x frames r).1 h.1) ?_
    exact (endsEarly_putAll xs frames h.2).bind fun _ => .pure _

end

/-- A bulk string of which the stream brings only the first characters is filled up with zeros. -/
lemma item_bulk_cut {data rest : List UInt8} (hrest : rest ≠ [])
    (hlength : (data ++ rest).length ≤ L.bytes) :
    (item L (frames + 1)).run
        ⟨Marker.bulkString.char :: (decimal (data ++ rest).length ++ crlf ++ data), true⟩ =
      .ok (.bulkString (some (data ++ List.replicate rest.length 0))) ended := by
  have hpos := List.length_pos_iff.mpr hrest
  have hbytes := L.bytes_lt
  have hsum : (data ++ rest).length = data.length + rest.length := List.length_append
  have hread : (modifyGet (IStream.read (data ++ rest).length) : Reader (List UInt8)).run
      ⟨data, true⟩ = .ok data ended := by
    change (match (IStream.mk data true).read (data ++ rest).length with
      | (xs, t) => EStateM.Result.ok xs t) = _
    rw [IStream.read_of_lt (by omega)]
    rfl
  have hline : getline.run ended = .ok [] ended := rfl
  have hdata : (binaryData L).run
      ⟨decimal (data ++ rest).length ++ crlf ++ data, true⟩ =
        .ok (some (data ++ List.replicate rest.length 0)) ended := by
    rw [List.append_assoc, binaryData, run_bind_of_ok (getInteger_crlf (by omega)), readData,
      if_neg (by omega), if_neg (by omega), if_neg (by omega), Int.toNat_natCast,
      run_bind_of_ok hread, run_bind_of_ok hline, hsum, Nat.add_sub_cancel_left]
    rfl
  rw [item, run_bind_of_ok getMark_char, construct, run_bind_of_ok hdata]
  rfl

/-- Where the stream ends before the value does, there is no value, or the stream is good no more.
The stream alone tells, though: a bulk string of which some characters have come is read with zeros
for the others, and without an exception. -/
theorem item_truncated {x : Serialization.Item} (hsound : Sound L x (frames + 1)) {p q : List UInt8}
    (hpq : p ++ q = put x) (hq : q ≠ []) :
    (∀ y t, (item L (frames + 1)).run ⟨p, true⟩ = .ok y t → t.rest = [] ∧ t.good = false) ∧
      ∀ data rest, x = .bulkString (some (data ++ rest)) → rest ≠ [] →
        p = Marker.bulkString.char :: (decimal (data ++ rest).length ++ crlf ++ data) →
        (item L (frames + 1)).run ⟨p, true⟩ =
          .ok (.bulkString (some (data ++ List.replicate rest.length 0))) ⟨[], false⟩ := by
  refine ⟨fun y t hrun => ?_, ?_⟩
  · rw [endsEarly_put x (frames + 1) hsound p q hpq hq y t hrun]
    exact ⟨rfl, rfl⟩
  · rintro data rest rfl hrest rfl
    exact item_bulk_cut hrest hsound.2

theorem item_truncated_bulk : (item smallLimits 1).run ⟨text "$3\r\nab", true⟩ =
    .ok (.bulkString (some (text "ab" ++ [0]))) ⟨[], false⟩ := by
  have hsound : Sound smallLimits (.bulkString (some (text "ab" ++ text "c"))) 1 :=
    ⟨by decide, by decide⟩
  exact (item_truncated hsound (q := text "c\r\n") (by decide) (by decide)).2 (text "ab") (text "c")
    rfl (by decide) (by decide)

end Redis
