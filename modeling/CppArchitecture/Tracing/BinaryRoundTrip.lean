import CppArchitecture.Core.Truncated
import CppArchitecture.Tracing.BinaryPropagator

/-!
# Reading the bytes of a span context

What a host has written is read again by hosts of its kind. A host with the other byte order reads
every number with its bytes turned. Where the bytes end too early, that is found out if some of the
baggage is missing, and not if some of the numbers before it are.
-/

namespace Tracing

open Core

namespace BinaryPropagator

open SpanContext (Reader)

variable {host other : Endian} {w i : ℕ} {value : BitVec w} {bs r str p q : List UInt8}
  {s t : IStream UInt8} {items : List (List UInt8 × List UInt8)} {baggage : StrMap}
  {ctx : SpanContext}

/-! ### Numbers -/

lemma readLoop_append : readLoop bs.length value ⟨bs ++ r, true⟩ =
    (bs.foldl appendByte value, ⟨r, true⟩) := by
  induction bs generalizing value with
  | nil => rfl
  | cons c bs ih => exact ih

lemma readLoop_short (h : bs.length < i) : readLoop i value ⟨bs, true⟩ =
    (bs.foldl appendByte value, ⟨[], false⟩) := by
  induction bs generalizing value i with
  | nil =>
    obtain ⟨j, rfl⟩ := Nat.exists_eq_add_of_lt h
    rfl
  | cons c bs ih =>
    match i with
    | i + 1 => exact ih (Nat.lt_of_succ_lt_succ h)

lemma readLoop_of_bad (h : s.good = false) : readLoop i value s = (value, s) := by
  cases i with
  | zero => rfl
  | succ i => rw [readLoop, IStream.get_of_bad h]

/-- What `other` reads of a number that `host` has written. -/
def seen (host other : Endian) (value : BitVec w) : BitVec w :=
  other.fromBigEndian (host.toBigEndian value)

lemma seen_self (hw : 8 ∣ w) : seen host host value = value := by
  match host with
  | .little => exact byteSwap_byteSwap hw
  | .big => rfl

lemma seen_of_ne (h : host ≠ other) : seen host other value = byteSwap value := by
  match host, other, h with
  | .little, .big, _ | .big, .little, _ => rfl

lemma length_writeBinary (host : Endian) (value : BitVec w) :
    (writeBinary host value).length = w / 8 := length_bytes

lemma readBinary_run (hw : 8 ∣ w) : (readBinary other w).run ⟨writeBinary host value ++ r, true⟩ =
    .ok (seen host other value) ⟨r, true⟩ := by
  have hvalue : (writeBinary host value).foldl appendByte 0 =
      host.toBigEndian value := ofBytes_bytes hw
  have hloop : readLoop (w / 8) 0 ⟨writeBinary host value ++ r, true⟩ =
      (host.toBigEndian value, ⟨r, true⟩) := by
    rw [← hvalue, ← length_writeBinary host value]
    exact readLoop_append
  rw [readBinary, run_bind_of_ok (run_modifyGet_eq_ok.mpr hloop)]
  rfl

/-! ### Texts -/

lemma readString_run (h : str.length < 2 ^ 32) :
    (readString host).run ⟨writeString host str ++ r, true⟩ = .ok str ⟨r, true⟩ := by
  have hlength : (BitVec.ofNat 32 str.length).toNat = str.length := Nat.mod_eq_of_lt h
  have hread : (IStream.mk (str ++ r) true).read (BitVec.ofNat 32 str.length).toNat =
      (str, ⟨r, true⟩) := by
    rw [hlength]
    exact IStream.read_append
  rw [readString, writeString, List.append_assoc, run_bind_of_ok (readBinary_run (by decide)),
    seen_self (by decide), run_bind_of_ok (run_modifyGet_eq_ok.mpr hread)]
  rfl

/-- Sizes that fit into the four bytes they are written with. -/
structure Fits (items : List (List UInt8 × List UInt8)) : Prop where
  length_lt : items.length < 2 ^ 32
  forall_lt : ∀ item ∈ items, item.1.length < 2 ^ 32 ∧ item.2.length < 2 ^ 32

/-- The bytes of an item of the baggage. -/
def itemBytes (host : Endian) (item : List UInt8 × List UInt8) : List UInt8 :=
  writeString host item.1 ++ writeString host item.2

lemma readItems_run (h : ∀ item ∈ items, item.1.length < 2 ^ 32 ∧ item.2.length < 2 ^ 32) :
    (readItems host items.length baggage).run ⟨items.flatMap (itemBytes host) ++ r, true⟩ =
      .ok (Table.assignAll baggage items) ⟨r, true⟩ := by
  induction items generalizing baggage with
  | nil => rfl
  | cons item items ih =>
    obtain ⟨⟨hkey, hvalue⟩, hitems⟩ := List.forall_mem_cons.mp h
    rw [List.flatMap_cons, itemBytes, List.append_assoc, List.append_assoc, List.length_cons,
      readItems, run_bind_of_ok (readString_run hkey), run_bind_of_ok (readString_run hvalue)]
    exact ih hitems

/-! ### Contexts -/

/-- The bytes before the baggage. -/
def numbers (host : Endian) (ctx : SpanContext) (count : ℕ) : List UInt8 :=
  writeBinary host ctx.traceID.high ++ (writeBinary host ctx.traceID.low ++
    (writeBinary host ctx.spanID ++ (writeBinary host ctx.parentID ++ (⟨ctx.flags⟩ ::
      writeBinary host (BitVec.ofNat 32 count)))))

lemma length_numbers {count : ℕ} : (numbers host ctx count).length = 37 := by
  simp [numbers, length_writeBinary]

lemma inject_eq :
    inject host ctx items = numbers host ctx items.length ++ items.flatMap (itemBytes host) := by
  simp only [inject, numbers, List.append_assoc, List.cons_append, List.nil_append]
  rfl

/-- The context that `other` sees, with the baggage that is to be read. -/
def seenContext (host other : Endian) (ctx : SpanContext) (baggage : StrMap) : SpanContext where
  traceID := ⟨seen host other ctx.traceID.high, seen host other ctx.traceID.low⟩
  spanID := seen host other ctx.spanID
  parentID := seen host other ctx.parentID
  flags := ctx.flags
  baggage := baggage

/-- What is read of the numbers, and what of the baggage. -/
lemma read_run {count : ℕ} : (read other).run ⟨numbers host ctx count ++ r, true⟩ =
    (do
      let baggage ← readItems other (seen host other (BitVec.ofNat 32 count)).toNat ∅
      return seenContext host other ctx baggage : Reader SpanContext).run ⟨r, true⟩ := by
  simp only [numbers, List.append_assoc, List.cons_append]
  rw [read, run_bind_of_ok (readBinary_run (by decide)),
    run_bind_of_ok (readBinary_run (by decide)), run_bind_of_ok (readBinary_run (by decide)),
    run_bind_of_ok (readBinary_run (by decide)),
    run_bind_of_ok (run_modifyGet_eq_ok.mpr IStream.get_cons),
    run_bind_of_ok (readBinary_run (by decide))]
  rfl

lemma seenContext_self : seenContext host host ctx ctx.baggage =
    { ctx with debugID := [], traceState := [] } := by
  simp only [seenContext, seen_self (w := 64) (by decide)]

/-- Hosts of one kind understand each other: what is injected is extracted, but for the debug ID and
the state of the trace. -/
theorem extract_inject_self (hfits : Fits items) (hitems : Enumerates items ctx.baggage) :
    extract host ⟨inject host ctx items ++ r, true⟩ =
      (({ ctx with debugID := [], traceState := [] }, 0), ⟨r, true⟩) := by
  have hlength : (BitVec.ofNat 32 items.length).toNat = items.length :=
    Nat.mod_eq_of_lt hfits.length_lt
  rw [extract, inject_eq, List.append_assoc, read_run, seen_self (by decide), hlength,
    run_bind_of_ok (readItems_run hfits.forall_lt), hitems.assignAll_eq, seenContext_self]
  rfl

theorem extract_inject_self_little :
    extract .little ⟨inject .little { spanID := 1, baggage := Finmap.singleton [97] [98] }
        [([97], [98])] ++ [99], true⟩ =
      (({ spanID := 1, baggage := Finmap.singleton [97] [98] }, 0), ⟨[99], true⟩) :=
  extract_inject_self ⟨by decide, by decide⟩ .singleton

/-- A context without baggage is understood by a host of the other kind only if turning the bytes of
its numbers changes nothing. -/
theorem extract_inject_iff (hbaggage : ctx.baggage = ∅) :
    extract other ⟨inject host ctx [] ++ r, true⟩ =
        (({ ctx with debugID := [], traceState := [] }, 0), ⟨r, true⟩) ↔
      host = other ∨ (byteSwap ctx.traceID.high = ctx.traceID.high ∧
        byteSwap ctx.traceID.low = ctx.traceID.low ∧ byteSwap ctx.spanID = ctx.spanID ∧
        byteSwap ctx.parentID = ctx.parentID) := by
  have hzero : (seen host other (BitVec.ofNat 32 0)).toNat = 0 := by
    match host, other with
    | .little, .little | .little, .big | .big, .little | .big, .big => rfl
  have hextract : extract other ⟨inject host ctx [] ++ r, true⟩ =
      ((seenContext host other ctx ∅, 0), ⟨r, true⟩) := by
    rw [extract, inject_eq, List.append_assoc, read_run, List.length_nil, hzero]
    rfl
  rw [hextract]
  by_cases hhost : host = other
  · -- nothing is turned
    subst hhost
    rw [← hbaggage, seenContext_self]
    exact iff_of_true rfl (.inl rfl)
  · simp only [seenContext, seen_of_ne hhost, hhost, false_or]
    constructor
    · intro h
      have hctx := congrArg (fun result => result.1.1) h
      exact ⟨congrArg (fun c => c.traceID.high) hctx, congrArg (fun c => c.traceID.low) hctx,
        congrArg SpanContext.spanID hctx, congrArg SpanContext.parentID hctx⟩
    · rintro ⟨hhigh, hlow, hspanID, hparentID⟩
      rw [hhigh, hlow, hspanID, hparentID, ← hbaggage]

theorem extract_inject_iff_little_big :
    extract .big ⟨inject .little { spanID := 1 } [] ++ [], true⟩ ≠
      (({ spanID := 1 }, 0), ⟨[], true⟩) := by
  rw [ne_eq, extract_inject_iff rfl]
  decide

/-! ### Bytes that end too early -/

lemma staysEnded_readBinary : StaysEnded (readBinary host w) := by
  intro v t hrun
  have hloop : readLoop (w / 8) (0 : BitVec w) ended = (0, ended) := readLoop_of_bad rfl
  rw [readBinary, run_bind_of_ok (run_modifyGet_eq_ok.mpr hloop)] at hrun
  cases hrun
  rfl

lemma endsEarly_readBinary : EndsEarly (readBinary other w) (writeBinary host value) := by
  intro p q hpq hq v t hrun
  have hshort : p.length < w / 8 := by
    have hpos := List.length_pos_iff.mpr hq
    rw [← length_writeBinary host value, ← hpq, List.length_append]
    omega
  rw [readBinary, run_bind_of_ok (run_modifyGet_eq_ok.mpr (readLoop_short hshort))] at hrun
  cases hrun
  rfl

/-- The end of `readString`. -/
lemma staysEnded_check {str : List UInt8} : StaysEnded (do
    if (← get).good then return str else throw () : Reader (List UInt8)) := by
  intro v t hrun
  cases hrun

lemma staysEnded_rest (length : BitVec 32) : StaysEnded (do
    let str ← modifyGet (IStream.read length.toNat)
    if (← get).good then return str else throw () : Reader (List UInt8)) :=
  (StaysEnded.read _).bind fun _ => staysEnded_check

lemma endsEarly_readString (h : str.length < 2 ^ 32) :
    EndsEarly (readString host) (writeString host str) := by
  have hlength : (BitVec.ofNat 32 str.length).toNat = str.length := Nat.mod_eq_of_lt h
  refine endsEarly_readBinary.append (a := BitVec.ofNat 32 str.length) staysEnded_rest (fun r => ?_)
    ?_
  · rw [readBinary_run (by decide), seen_self (by decide)]
  · rw [hlength]
    exact endsEarly_read.bind fun _ => staysEnded_check

/-- A text that has been read has come whole. -/
lemma good_of_readString (hrun : (readString host).run s = .ok str t) : t.good = true := by
  obtain ⟨length, u, -, hrest⟩ := run_bind_eq_ok.mp hrun
  obtain ⟨str', v, -, hcheck⟩ := run_bind_eq_ok.mp hrest
  rw [run_bind_of_ok (EStateM.run_get v)] at hcheck
  by_cases hgood : v.good = true
  · rw [if_pos hgood] at hcheck
    cases hcheck
    exact hgood
  · rw [if_neg hgood] at hcheck
    cases hcheck

lemma staysEnded_readString : StaysEnded (readString host) :=
  staysEnded_readBinary.bind staysEnded_rest

lemma staysEnded_readItems : StaysEnded (readItems host i baggage) := by
  induction i generalizing baggage with
  | zero => exact .pure _
  | succ i ih => exact staysEnded_readString.bind fun _ => staysEnded_readString.bind fun _ => ih

lemma endsEarly_readItems (h : ∀ item ∈ items, item.1.length < 2 ^ 32 ∧ item.2.length < 2 ^ 32) :
    EndsEarly (readItems host items.length baggage) (items.flatMap (itemBytes host)) := by
  induction items generalizing baggage with
  | nil => exact fun p q hpq hq => absurd (List.append_eq_nil_iff.mp hpq).2 hq
  | cons item items ih =>
    obtain ⟨⟨hkey, hvalue⟩, hitems⟩ := List.forall_mem_cons.mp h
    rw [List.flatMap_cons, itemBytes, List.append_assoc, List.length_cons, readItems]
    refine (endsEarly_readString hkey).append (a := item.1)
      (fun _ => staysEnded_readString.bind fun _ => staysEnded_readItems)
      (fun r => readString_run hkey) ?_
    exact (endsEarly_readString hvalue).append (a := item.2) (fun _ => staysEnded_readItems)
      (fun r => readString_run hvalue) (ih hitems)

lemma good_of_readItems {b : StrMap} (hrun : (readItems host (i + 1) baggage).run s = .ok b t) :
    t.good = true := by
  induction i generalizing baggage s with
  | zero =>
    obtain ⟨key, u, -, hrest⟩ := run_bind_eq_ok.mp hrun
    obtain ⟨value, v, hvalue, hpure⟩ := run_bind_eq_ok.mp hrest
    cases hpure
    exact good_of_readString hvalue
  | succ i ih =>
    obtain ⟨key, u, -, hrest⟩ := run_bind_eq_ok.mp hrun
    obtain ⟨value, v, -, hitems⟩ := run_bind_eq_ok.mp hrest
    exact ih hitems

/-- The items do not come to a baggage if some of their bytes are missing. -/
lemma readItems_truncated (baggage : StrMap)
    (h : ∀ item ∈ items, item.1.length < 2 ^ 32 ∧ item.2.length < 2 ^ 32)
    (hpq : p ++ q = items.flatMap (itemBytes host)) (hq : q ≠ []) :
    ∃ t, (readItems host items.length baggage).run ⟨p, true⟩ = .error () t := by
  cases hrun : (readItems host items.length baggage).run ⟨p, true⟩ with
  | error e t => exact ⟨t, rfl⟩
  | ok b t =>
    have hended := endsEarly_readItems h p q hpq hq b t hrun
    match items with
    | [] => exact absurd (List.append_eq_nil_iff.mp hpq).2 hq
    | item :: items =>
      -- the stream is at its end, and yet the last text has come whole
      have hgood := good_of_readItems hrun
      rw [hended] at hgood
      cases hgood

/-- A stream that is good, or at its end. -/
def Ends (s : IStream UInt8) : Prop := s.good = false → s.rest = []

lemma get_rest (hs : Ends s) : Ends s.get.2 ∧ s.get.2.rest.length = s.rest.length - 1 := by
  obtain ⟨rest, good⟩ := s
  match good, rest with
  | false, rest =>
    obtain rfl : rest = [] := hs rfl
    exact ⟨fun _ => rfl, rfl⟩
  | true, [] => exact ⟨fun _ => rfl, rfl⟩
  | true, c :: rest => exact ⟨nofun, rfl⟩

lemma readLoop_rest (value : BitVec w) (hs : Ends s) : Ends (readLoop i value s).2 ∧
    (readLoop i value s).2.rest.length = s.rest.length - i := by
  induction i generalizing value s with
  | zero => exact ⟨hs, rfl⟩
  | succ i ih =>
    obtain ⟨rest, good⟩ := s
    match good, rest with
    | false, rest =>
      obtain rfl : rest = [] := hs rfl
      exact ⟨fun _ => rfl, (Nat.zero_sub _).symm⟩
    | true, [] => exact ⟨fun _ => rfl, (Nat.zero_sub _).symm⟩
    | true, c :: rest =>
      obtain ⟨hends, hlength⟩ := ih (s := ⟨rest, true⟩) (appendByte value c) nofun
      exact ⟨hends, hlength.trans (Nat.succ_sub_succ _ _).symm⟩

lemma readBinary_rest (host : Endian) (hs : Ends s) :
    ∃ v t, (readBinary host w).run s = .ok v t ∧ Ends t ∧
      t.rest.length = s.rest.length - w / 8 := by
  obtain ⟨hends, hlength⟩ := readLoop_rest (i := w / 8) (0 : BitVec w) hs
  exact ⟨_, _, rfl, hends, hlength⟩

/-- Where there is nothing to be read, the number is zero. -/
lemma readBinary_empty (host : Endian) (hs : s.rest = []) :
    ∃ t, (readBinary host 32).run s = .ok 0 t := by
  obtain ⟨rest, good⟩ := s
  obtain rfl : rest = [] := hs
  match host, good with
  | .little, true | .little, false | .big, true | .big, false => exact ⟨_, rfl⟩

/-- Where some of the bytes are missing, that is found out if those before the baggage are there;
it is not if not even the number of its items is there, and then the baggage is lost. -/
theorem extract_truncated (hfits : Fits items) (hpq : p ++ q = inject host ctx items)
    (hq : q ≠ []) :
    (37 ≤ p.length → (extract host ⟨p, true⟩).1 = ({}, 1)) ∧
      (p.length ≤ 33 → (extract host ⟨p, true⟩).1.2 = 0 ∧
        (extract host ⟨p, true⟩).1.1.baggage = ∅) := by
  constructor
  · intro hlong
    rw [inject_eq] at hpq
    obtain ⟨c, rfl, hc⟩ : ∃ c, p = numbers host ctx items.length ++ c ∧
        c ++ q = items.flatMap (itemBytes host) := by
      rcases List.append_eq_append_iff.mp hpq with ⟨c, hnumbers, hc⟩ | ⟨c, hp, hc⟩
      · -- nothing is missing from the numbers, as they are 37 bytes
        have hlength := congrArg List.length hnumbers
        rw [length_numbers, List.length_append] at hlength
        have hnil : c = [] := List.eq_nil_of_length_eq_zero (by omega)
        subst hnil
        exact ⟨[], by rw [hnumbers, List.append_nil, List.append_nil], hc⟩
      · exact ⟨c, hp, hc.symm⟩
    have hlength : (BitVec.ofNat 32 items.length).toNat = items.length :=
      Nat.mod_eq_of_lt hfits.length_lt
    obtain ⟨t, ht⟩ := readItems_truncated ∅ hfits.forall_lt hc hq
    rw [extract, read_run, seen_self (by decide), hlength, run_bind_of_error ht]
  · intro hshort
    obtain ⟨high, t₁, hhigh, hends₁, hlength₁⟩ :=
      readBinary_rest (s := ⟨p, true⟩) (w := 64) host nofun
    obtain ⟨low, t₂, hlow, hends₂, hlength₂⟩ := readBinary_rest (w := 64) host hends₁
    obtain ⟨spanID, t₃, hspanID, hends₃, hlength₃⟩ :=
      readBinary_rest (w := 64) host hends₂
    obtain ⟨parentID, t₄, hparentID, hends₄, hlength₄⟩ :=
      readBinary_rest (w := 64) host hends₃
    obtain ⟨-, hlength₅⟩ := get_rest hends₄
    -- nothing is left when the number of the items is to be read
    have hnone : t₄.get.2.rest = [] := by
      refine List.eq_nil_of_length_eq_zero ?_
      rw [hlength₅, hlength₄, hlength₃, hlength₂, hlength₁]
      change p.length - 64 / 8 - 64 / 8 - 64 / 8 - 64 / 8 - 1 = 0
      omega
    obtain ⟨t₆, hcount⟩ := readBinary_empty host hnone
    have hread : (read host).run ⟨p, true⟩ = .ok {
        traceID := ⟨high, low⟩
        spanID := spanID
        parentID := parentID
        flags := (t₄.get.1.getD 0).toBitVec } t₆ := by
      rw [read, run_bind_of_ok hhigh, run_bind_of_ok hlow, run_bind_of_ok hspanID,
        run_bind_of_ok hparentID, run_bind_of_ok (EStateM.run_modifyGet _ _),
        run_bind_of_ok hcount]
      rfl
    rw [extract, hread]
    exact ⟨rfl, rfl⟩

theorem extract_truncated_little :
    (extract .little ⟨(inject .little { spanID := 1 } [([97], [98])]).take 40, true⟩).1 = ({}, 1) :=
  (extract_truncated ⟨by decide, by decide⟩ (List.take_append_drop 40 _) (by decide)).1 (by decide)

end BinaryPropagator

end Tracing
