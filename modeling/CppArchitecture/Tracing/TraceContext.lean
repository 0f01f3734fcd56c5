import CppArchitecture.Tracing.Basic

/-!
# Printing and reading the context of a span

What is printed of a span context is read back. What is accepted at all is made of four fields of
hexadecimal digits with colons between them, each no longer than its number is.
-/

namespace Tracing

open Core

variable {w width maxChars n d : ℕ} {delim c : UInt8} {str buffer xs r : List UInt8}
  {s t : IStream UInt8}

/-! ### Hexadecimal numbers -/

lemma isHex_digitChar (hd : d < 16) : isHex (digitChar d) = true := by
  interval_cases d <;> rfl

lemma hexDigit_digitChar (hd : d < 16) : hexDigit (digitChar d) = d := by
  interval_cases d <;> rfl

lemma hexDigit_lt (hc : isHex c = true) : hexDigit c < 16 := by
  simp only [isHex, Bool.or_eq_true, Bool.and_eq_true, decide_eq_true_eq,
    UInt8.le_iff_toNat_le] at hc
  simp only [hexDigit, isDigit, isUpper, Bool.and_eq_true, decide_eq_true_eq,
    UInt8.le_iff_toNat_le]
  split_ifs <;> simp_all <;> omega

/-- The number that is decoded, but for the bits its type has no room for. -/
lemma toNat_decodeHex (hstr : ∀ c ∈ str, isHex c = true) :
    (decodeHex w str).toNat = ofDigits 16 (str.map hexDigit) % 2 ^ w := by
  induction str using List.reverseRecOn with
  | nil => simp [decodeHex, ofDigits]
  | append_singleton str c ih =>
    have hc : hexDigit c < 2 ^ 4 := hexDigit_lt (hstr c (by simp))
    have ih := ih fun c hc => hstr c (List.mem_append_left _ hc)
    have hstep : decodeHex w (str ++ [c]) =
        decodeHex w str <<< 4 ||| BitVec.ofNat w (hexDigit c) := by
      simp [decodeHex]
    rw [hstep, BitVec.toNat_or, BitVec.toNat_shiftLeft, BitVec.toNat_ofNat, ← Nat.or_mod_two_pow,
      ← Nat.shiftLeft_add_eq_or_of_lt hc, Nat.shiftLeft_eq, ih, List.map_append, ofDigits_append]
    simp [Nat.add_mod, Nat.mul_mod, mul_comm]

lemma isHex_of_mem_hexPadded (hc : c ∈ hexPadded width n) : isHex c = true := by
  obtain ⟨d, hd, rfl⟩ := List.mem_map.mp hc
  refine isHex_digitChar ?_
  rcases List.mem_append.mp hd with hd | hd
  · rw [(List.mem_replicate.mp hd).2]
    decide
  · exact lt_of_mem_digits (by decide) hd

lemma hexPadded_ne_nil : hexPadded width n ≠ [] := by
  rw [hexPadded, ne_eq, List.map_eq_nil_iff, pad, List.append_eq_nil_iff, not_and]
  exact fun _ => digits_ne_nil

lemma length_hexPadded (hwidth : 0 < width) (hn : n < 16 ^ width) :
    (hexPadded width n).length = width := by
  rw [hexPadded, List.length_map, length_pad (length_digits_le (by decide) hwidth hn)]

/-- A number is decoded from its digits. -/
lemma decodeHex_hexPadded : decodeHex w (hexPadded width n) = BitVec.ofNat w n := by
  have hvalue : (hexPadded width n).map hexDigit = pad width (digits 16 n) := by
    rw [hexPadded, List.map_map]
    conv_rhs => rw [← List.map_id (pad width (digits 16 n))]
    refine List.map_congr_left fun d hd => ?_
    rcases List.mem_append.mp hd with hd | hd
    · rw [(List.mem_replicate.mp hd).2]
      rfl
    · exact hexDigit_digitChar (lt_of_mem_digits (by decide) hd)
  refine BitVec.eq_of_toNat_eq ?_
  rw [toNat_decodeHex fun c hc => isHex_of_mem_hexPadded hc, hvalue, ofDigits_pad, ofDigits_digits,
    BitVec.toNat_ofNat]

/-! ### Segments -/

/-- A segment of hexadecimal digits. -/
structure IsSegment (maxChars : ℕ) (str : List UInt8) : Prop where
  ne_nil : str ≠ []
  length_le : str.length ≤ maxChars
  isHex : ∀ c ∈ str, isHex c = true

lemma isSegment_hexPadded (hwidth : width ≤ maxChars) (hpos : 0 < maxChars)
    (hn : n < 16 ^ maxChars) : IsSegment maxChars (hexPadded width n) := by
  refine ⟨hexPadded_ne_nil, ?_, fun _ => isHex_of_mem_hexPadded⟩
  have hdigits := length_digits_le (by decide : 1 < 16) hpos hn
  rw [hexPadded, List.length_map, pad, List.length_append, List.length_replicate]
  omega

/-- The digits are read as far as there is room for them. -/
lemma readLoop_append (hstr : ∀ c ∈ str, isHex c = true) (hlength : str.length ≤ maxChars) :
    readLoop delim maxChars buffer ⟨str ++ r, true⟩ =
      readLoop delim (maxChars - str.length) (buffer ++ str) ⟨r, true⟩ := by
  induction str generalizing maxChars buffer with
  | nil => simp
  | cons c str ih =>
    obtain ⟨m, rfl⟩ : ∃ m, maxChars = m + 1 := ⟨maxChars - 1, by simp at hlength; omega⟩
    obtain ⟨hc, hrest⟩ := List.forall_mem_cons.mp hstr
    rw [List.cons_append, readLoop, IStream.get_cons]
    simp only [hc, if_true]
    rw [ih hrest (by simpa using hlength)]
    simp

lemma readSegment_delim (hstr : ∀ c ∈ str, isHex c = true) (hlength : str.length ≤ maxChars)
    (hdelim : isHex delim = false) : readSegment maxChars delim ⟨str ++ delim :: r, true⟩ =
      (str, ⟨delim :: r, true⟩) := by
  rw [readSegment, readLoop_append hstr hlength, List.nil_append]
  cases maxChars - str.length with
  | zero => rfl
  | succ m =>
    rw [readLoop, IStream.get_cons]
    simp [hdelim, IStream.putback]

lemma readSegment_end (hstr : ∀ c ∈ str, isHex c = true) (hlength : str.length < maxChars) :
    readSegment maxChars delim ⟨str, true⟩ = (str, ⟨[], false⟩) := by
  have hloop : readLoop delim maxChars [] ⟨str, true⟩ =
      readLoop delim (maxChars - str.length) str ⟨[], true⟩ := by
    conv_lhs => rw [← List.append_nil str]
    exact readLoop_append hstr hlength.le
  rw [readSegment, hloop]
  obtain ⟨m, hm⟩ : ∃ m, maxChars - str.length = m + 1 := ⟨maxChars - str.length - 1, by omega⟩
  rw [hm, readLoop, IStream.get_nil]

lemma readSegment_full (hstr : ∀ c ∈ str, isHex c = true) (hlength : str.length = maxChars) :
    readSegment maxChars delim ⟨str ++ r, true⟩ = (str, ⟨r, true⟩) := by
  rw [readSegment, readLoop_append hstr hlength.le, hlength, Nat.sub_self]
  rfl

/-- A text begins with its digits, as many as there is room for. -/
lemma exists_digits (maxChars : ℕ) (xs : List UInt8) : ∃ str r, xs = str ++ r ∧
    (∀ c ∈ str, isHex c = true) ∧ str.length ≤ maxChars ∧
    (str.length < maxChars → ∀ c, r.head? = some c → isHex c = false) := by
  induction maxChars generalizing xs with
  | zero => exact ⟨[], xs, rfl, nofun, le_rfl, nofun⟩
  | succ m ih =>
    match xs with
    | [] => exact ⟨[], [], rfl, nofun, Nat.zero_le _, nofun⟩
    | c :: xs =>
      by_cases hc : isHex c = true
      · obtain ⟨str, r, rfl, hstr, hlength, hnext⟩ := ih xs
        refine ⟨c :: str, r, rfl, List.forall_mem_cons.mpr ⟨hc, hstr⟩, ?_, fun hlt => hnext ?_⟩
        · simpa using hlength
        · simpa using hlt
      · refine ⟨[], c :: xs, rfl, nofun, Nat.zero_le _, fun _ d hd => ?_⟩
        cases hd
        exact Bool.eq_false_iff.mpr hc

namespace SpanContext

/-- What follows a segment that has been read: the delimiter or the end, if there was room for
more, and anything, if there was none. -/
def Follows (maxChars : ℕ) (delim : UInt8) (str r : List UInt8) (t : IStream UInt8) : Prop :=
  (str.length = maxChars ∧ t = ⟨r, true⟩) ∨
    (str.length < maxChars ∧ ((∃ r', r = delim :: r' ∧ t = ⟨r, true⟩) ∨ (r = [] ∧ t = ⟨[], false⟩)))

lemma segment_run {m : ℕ} {d : UInt8} {x : List UInt8} (hread : readSegment m d s = (x, t)) :
    (segment m d).run s = if x = [] then .error () t else .ok x t := by
  rw [segment, run_bind_of_ok (run_modifyGet_eq_ok.mpr hread)]
  by_cases hnil : x = []
  · simp only [if_pos hnil]
    rfl
  · simp only [if_neg hnil]
    rfl

/-- The segments that are read. -/
lemma segment_eq_ok_iff (hdelim : isHex delim = false) :
    (segment maxChars delim).run ⟨xs, true⟩ = .ok str t ↔
      IsSegment maxChars str ∧ ∃ r, xs = str ++ r ∧ Follows maxChars delim str r t := by
  have hrun := fun buffer u => segment_run (s := ⟨xs, true⟩) (m := maxChars) (d := delim)
    (x := buffer) (t := u)
  constructor
  · intro h
    obtain ⟨buffer, r, hxs, hbuffer, hlength, hnext⟩ := exists_digits maxChars xs
    have hseg : ∀ u, readSegment maxChars delim ⟨xs, true⟩ = (buffer, u) →
        Follows maxChars delim buffer r u → IsSegment maxChars str ∧
          ∃ r, xs = str ++ r ∧ Follows maxChars delim str r t := by
      intro u hread hfollows
      rw [hrun buffer u hread] at h
      split_ifs at h with hnil
      cases h
      exact ⟨⟨hnil, hlength, hbuffer⟩, r, hxs, hfollows⟩
    rcases hlength.eq_or_lt with hfull | hlt
    · refine hseg ⟨r, true⟩ ?_ (.inl ⟨hfull, rfl⟩)
      rw [hxs]
      exact readSegment_full hbuffer hfull
    · match r with
      | [] =>
        refine hseg ⟨[], false⟩ ?_ (.inr ⟨hlt, .inr ⟨rfl, rfl⟩⟩)
        rw [hxs, List.append_nil]
        exact readSegment_end hbuffer hlt
      | c :: r =>
        by_cases hc : c = delim
        · subst hc
          refine hseg ⟨c :: r, true⟩ ?_ (.inr ⟨hlt, .inl ⟨r, rfl, rfl⟩⟩)
          rw [hxs]
          exact readSegment_delim hbuffer hlength hdelim
        · -- a character that is neither a digit nor the delimiter
          have hbad : readSegment maxChars delim ⟨xs, true⟩ = ([], ⟨r, true⟩) := by
            obtain ⟨m, hm⟩ : ∃ m, maxChars - buffer.length = m + 1 :=
              ⟨maxChars - buffer.length - 1, by omega⟩
            rw [hxs, readSegment, readLoop_append hbuffer hlength, hm, readLoop, IStream.get_cons]
            simp [hnext hlt c rfl, hc]
          rw [hrun [] ⟨r, true⟩ hbad] at h
          cases h
  · rintro ⟨hsegment, r, rfl, hfollows⟩
    -- there is no room for more, or the delimiter comes next, or nothing
    rcases hfollows with ⟨hfull, rfl⟩ | ⟨hlt, ⟨r', rfl, rfl⟩ | ⟨rfl, rfl⟩⟩
    · rw [hrun str _ (readSegment_full hsegment.isHex hfull), if_neg hsegment.ne_nil]
    · rw [hrun str _ (readSegment_delim hsegment.isHex hsegment.length_le hdelim),
        if_neg hsegment.ne_nil]
    · rw [List.append_nil] at hrun ⊢
      rw [hrun str _ (readSegment_end hsegment.isHex hlt), if_neg hsegment.ne_nil]

lemma expect_eq_ok_iff {u : PUnit} :
    (expect c).run s = .ok u t ↔ ∃ r, s = ⟨c :: r, true⟩ ∧ t = ⟨r, true⟩ := by
  obtain ⟨xs, good⟩ := s
  cases good with
  | false =>
    have hrun : (expect c).run ⟨xs, false⟩ = .error () ⟨xs, false⟩ := by
      cases xs <;> rfl
    rw [hrun]
    simp
  | true =>
    match xs with
    | [] => simp [show (expect c).run ⟨[], true⟩ = .error () ⟨[], false⟩ from rfl]
    | d :: xs =>
      by_cases hd : d = c
      · subst hd
        have hrun : (expect d).run ⟨d :: xs, true⟩ = .ok ⟨⟩ ⟨xs, true⟩ := by
          change (if d ≠ d then throw () else pure ⟨⟩ : Reader PUnit).run _ = _
          rw [if_neg (not_not.mpr rfl)]
          rfl
        rw [hrun]
        simp [eq_comm]
      · have hrun : (expect c).run ⟨d :: xs, true⟩ = .error () ⟨xs, true⟩ := by
          change (if d ≠ c then throw () else pure ⟨⟩ : Reader PUnit).run _ = _
          rw [if_pos hd]
          rfl
        rw [hrun]
        simp [hd]

/-- A segment with the delimiter behind it. -/
lemma field_run (h : IsSegment maxChars str) (hdelim : isHex delim = false) :
    (segment maxChars delim).run ⟨str ++ delim :: r, true⟩ = .ok str ⟨delim :: r, true⟩ := by
  refine (segment_eq_ok_iff hdelim).mpr ⟨h, delim :: r, rfl, ?_⟩
  rcases h.length_le.eq_or_lt with hfull | hlt
  · exact .inl ⟨hfull, rfl⟩
  · exact .inr ⟨hlt, .inl ⟨r, rfl, rfl⟩⟩

lemma expect_run : (expect c).run ⟨c :: r, true⟩ = .ok ⟨⟩ ⟨r, true⟩ :=
  expect_eq_ok_iff.mpr ⟨r, rfl, rfl⟩

/-- Where a segment is read and then its delimiter, the text begins with them. -/
lemma field_eq_ok {u : IStream UInt8} {v : PUnit} (hdelim : isHex delim = false)
    (hstr : (segment maxChars delim).run ⟨xs, true⟩ = .ok str t)
    (hexpect : (expect delim).run t = .ok v u) :
    IsSegment maxChars str ∧ ∃ r, xs = str ++ delim :: r ∧ u = ⟨r, true⟩ := by
  obtain ⟨hsegment, r, rfl, hfollows⟩ := (segment_eq_ok_iff hdelim).mp hstr
  obtain ⟨r', rfl, rfl⟩ := expect_eq_ok_iff.mp hexpect
  refine ⟨hsegment, r', ?_, rfl⟩
  rcases hfollows with ⟨_, ht⟩ | ⟨_, ⟨_, _, ht⟩ | ⟨_, ht⟩⟩
  · cases ht
    rfl
  · cases ht
    rfl
  · cases ht

/-- A trace ID is read from a segment, and an empty segment gives one that is not valid. -/
lemma traceID_eq_ok_iff {id : TraceID} (hid : id.isValid = true) :
    (modifyGet TraceID.fromStream : Reader TraceID).run s = .ok id t ↔
      ∃ str, (segment 32 58).run s = .ok str t ∧ TraceID.ofBuffer str = id := by
  cases hread : readSegment 32 58 s with
  | mk buffer u =>
    have hfromStream : TraceID.fromStream s =
        if buffer = [] then ({}, u) else (TraceID.ofBuffer buffer, u) := by
      rw [TraceID.fromStream, hread]
    rw [segment_run hread]
    by_cases hnil : buffer = []
    · rw [run_modifyGet_eq_ok.mpr (hfromStream.trans (if_pos hnil)), if_pos hnil]
      refine iff_of_false (fun h => ?_) (by simp)
      cases h
      cases hid
    · rw [run_modifyGet_eq_ok.mpr (hfromStream.trans (if_neg hnil)), if_neg hnil]
      simp [and_comm]

lemma traceID_run (h : IsSegment 32 str) :
    (modifyGet TraceID.fromStream : Reader TraceID).run ⟨str ++ 58 :: r, true⟩ =
      .ok (TraceID.ofBuffer str) ⟨58 :: r, true⟩ := by
  have hread := readSegment_delim (r := r) h.isHex h.length_le (show isHex 58 = false from rfl)
  refine run_modifyGet_eq_ok.mpr ?_
  rw [TraceID.fromStream, hread]
  exact if_neg h.ne_nil

/-- The texts that a span context is read from, and what is left of them. -/
def Accepts (xs : List UInt8) (ctx : SpanContext) (r : List UInt8) : Prop :=
  ∃ a b c d, xs = a ++ 58 :: (b ++ 58 :: (c ++ 58 :: (d ++ r))) ∧
    IsSegment 32 a ∧ IsSegment 16 b ∧ IsSegment 16 c ∧ IsSegment 2 d ∧
    (d.length < 2 → r = [] ∨ r.head? = some 58) ∧ (TraceID.ofBuffer a).isValid = true ∧
    ctx = {
      traceID := TraceID.ofBuffer a
      spanID := decodeHex 64 b
      parentID := decodeHex 64 c
      flags := decodeHex 8 d }

lemma Follows.next (h : Follows maxChars delim str r t) (hlt : str.length < maxChars) :
    r = [] ∨ r.head? = some delim := by
  rcases h with ⟨hfull, _⟩ | ⟨_, ⟨r', rfl, _⟩ | ⟨rfl, _⟩⟩
  · omega
  · exact .inr rfl
  · exact .inl rfl

lemma Follows.clear_eq (h : Follows maxChars delim str r t) : t.clear = ⟨r, true⟩ := by
  rcases h with ⟨_, rfl⟩ | ⟨_, ⟨_, _, rfl⟩ | ⟨rfl, rfl⟩⟩ <;> rfl

lemma exists_follows (hlength : str.length ≤ maxChars)
    (hnext : str.length < maxChars → r = [] ∨ r.head? = some delim) :
    ∃ t, Follows maxChars delim str r t := by
  rcases hlength.eq_or_lt with hfull | hlt
  · exact ⟨_, .inl ⟨hfull, rfl⟩⟩
  · match r with
    | [] => exact ⟨_, .inr ⟨hlt, .inr ⟨rfl, rfl⟩⟩⟩
    | c :: r =>
      obtain hnil | hc := hnext hlt
      · cases hnil
      · cases hc
        exact ⟨_, .inr ⟨hlt, .inl ⟨r, rfl, rfl⟩⟩⟩

lemma read_eq_ok_iff {ctx : SpanContext} :
    read.run ⟨xs, true⟩ = .ok ctx t ↔ ∃ r, Accepts xs ctx r ∧ t = ⟨r, true⟩ := by
  constructor
  · intro h
    obtain ⟨id, s₁, hid, h⟩ := run_bind_eq_ok.mp h
    by_cases hvalid : id.isValid = true
    · -- the four fields, and what is read between them
      obtain ⟨a, htraceID, rfl⟩ := (traceID_eq_ok_iff hvalid).mp hid
      rw [if_neg (not_not.mpr hvalid)] at h
      obtain ⟨_, _, hcolon₁, h₁⟩ := run_bind_eq_ok.mp h
      obtain ⟨b, _, hspanID, h₂⟩ := run_bind_eq_ok.mp h₁
      obtain ⟨_, _, hcolon₂, h₃⟩ := run_bind_eq_ok.mp h₂
      obtain ⟨c, _, hparentID, h₄⟩ := run_bind_eq_ok.mp h₃
      obtain ⟨_, _, hcolon₃, h₅⟩ := run_bind_eq_ok.mp h₄
      obtain ⟨d, u, hflags, h₆⟩ := run_bind_eq_ok.mp h₅
      obtain ⟨hctx, ht⟩ := EStateM.Result.ok.inj h₆
      obtain ⟨ha, r₁, rfl, rfl⟩ := field_eq_ok rfl htraceID hcolon₁
      obtain ⟨hb, r₂, rfl, rfl⟩ := field_eq_ok rfl hspanID hcolon₂
      obtain ⟨hc, r₃, rfl, rfl⟩ := field_eq_ok rfl hparentID hcolon₃
      obtain ⟨hd, r, rfl, hfollows⟩ := (segment_eq_ok_iff rfl).mp hflags
      refine ⟨r, ⟨a, b, c, d, rfl, ha, hb, hc, hd, hfollows.next, hvalid, hctx.symm⟩, ?_⟩
      rw [← ht, hfollows.clear_eq]
    · rw [if_pos hvalid] at h
      cases h
  · rintro ⟨r, ⟨a, b, c, d, rfl, ha, hb, hc, hd, hnext, hvalid, rfl⟩, rfl⟩
    obtain ⟨t, ht⟩ := exists_follows hd.length_le hnext
    rw [read, run_bind_of_ok (traceID_run ha), if_neg (not_not.mpr hvalid),
      run_bind_of_ok expect_run,
      run_bind_of_ok (field_run hb rfl), run_bind_of_ok expect_run,
      run_bind_of_ok (field_run hc rfl), run_bind_of_ok expect_run,
      run_bind_of_ok ((segment_eq_ok_iff rfl).mpr ⟨hd, r, rfl, ht⟩)]
    rw [← ht.clear_eq]
    rfl

lemma Accepts.isValid {ctx : SpanContext} {r : List UInt8} (h : Accepts xs ctx r) :
    ctx.traceID.isValid = true := by
  obtain ⟨a, b, c, d, -, -, -, -, -, -, hvalid, rfl⟩ := h
  exact hvalid

lemma returned_of_run {reader : Reader SpanContext} {ctx : SpanContext}
    (h : reader.run s = .ok ctx t) : returned reader s = (ctx, t) := by
  rw [returned, h]

/-- A valid context is none that is returned where the reader has given up. -/
lemma run_of_returned {reader : Reader SpanContext} {ctx : SpanContext}
    (h : returned reader s = (ctx, t)) (hvalid : ctx.traceID.isValid = true) :
    reader.run s = .ok ctx t := by
  rw [returned] at h
  cases hread : reader.run s with
  | ok ctx' t' =>
    rw [hread] at h
    cases h
    rfl
  | error e t' =>
    rw [hread] at h
    cases h
    cases hvalid

end SpanContext

namespace TraceID

variable {id : TraceID}

lemma length_print : id.print.length = if id.high = 0 then 16 else 32 := by
  have hlow := length_hexPadded (by decide : 0 < 16) id.low.isLt
  have hhigh := length_hexPadded (by decide : 0 < 16) id.high.isLt
  rw [print]
  split_ifs
  · exact hlow
  · rw [List.length_append, hhigh, hlow]

lemma isSegment_print : IsSegment 32 id.print := by
  have hlength := id.length_print
  refine ⟨fun hnil => ?_, ?_, fun c hc => ?_⟩
  · rw [hnil] at hlength
    split_ifs at hlength
  · rw [hlength]
    split_ifs <;> decide
  · rw [print] at hc
    split_ifs at hc
    · exact isHex_of_mem_hexPadded hc
    · rcases List.mem_append.mp hc with hc | hc <;> exact isHex_of_mem_hexPadded hc

/-- A trace ID is found again in the text it is printed as. -/
lemma ofBuffer_print : ofBuffer id.print = id := by
  have hlow := length_hexPadded (by decide : 0 < 16) id.low.isLt
  have hhigh := length_hexPadded (by decide : 0 < 16) id.high.isLt
  obtain ⟨high, low⟩ := id
  rw [ofBuffer, length_print, print]
  by_cases hzero : high = 0
  · -- it is printed with 16 digits only
    subst hzero
    simp [decodeHex_hexPadded]
    rfl
  · simp only [if_neg hzero]
    rw [if_neg (by decide), List.take_left' hhigh, List.drop_left' hhigh, decodeHex_hexPadded,
      decodeHex_hexPadded]
    simp

end TraceID

namespace SpanContext

/-- The part of a context that is printed. -/
def printed (ctx : SpanContext) : SpanContext :=
  { ctx with baggage := ∅, debugID := [], traceState := [] }

lemma accepts_print {ctx : SpanContext} (hvalid : ctx.traceID.isValid = true) :
    Accepts ctx.print ctx.printed [] := by
  refine ⟨ctx.traceID.print, hexPadded 16 ctx.spanID.toNat, hexPadded 16 ctx.parentID.toNat,
    hexPadded 0 ctx.flags.toNat, ?_, TraceID.isSegment_print,
    isSegment_hexPadded le_rfl (by decide) ctx.spanID.isLt,
    isSegment_hexPadded le_rfl (by decide) ctx.parentID.isLt,
    isSegment_hexPadded (by decide) (by decide) ctx.flags.isLt, fun _ => .inl rfl, ?_, ?_⟩
  · simp [print]
  · rwa [TraceID.ofBuffer_print]
  · rw [TraceID.ofBuffer_print, decodeHex_hexPadded, decodeHex_hexPadded, decodeHex_hexPadded]
    simp [printed]

lemma fromStream_print_of_valid {ctx : SpanContext} (hvalid : ctx.traceID.isValid = true) :
    fromStream ⟨ctx.print, true⟩ = (ctx.printed, ⟨[], true⟩) :=
  returned_of_run (read_eq_ok_iff.mpr ⟨[], accepts_print hvalid, rfl⟩)

lemma fromStream_print_of_not_valid {ctx : SpanContext} (hvalid : ¬ ctx.traceID.isValid = true) :
    (fromStream ⟨ctx.print, true⟩).1 = {} := by
  rw [fromStream, returned, read, print, List.append_assoc, List.append_assoc, List.cons_append,
    run_bind_of_ok (traceID_run TraceID.isSegment_print), TraceID.ofBuffer_print, if_pos hvalid]
  rfl

/-- What is printed of a context is read back, provided that its trace ID is valid. -/
theorem fromStream_print (ctx : SpanContext) :
    (fromStream ⟨ctx.print, true⟩).1 = if ctx.traceID.isValid then ctx.printed else {} := by
  split_ifs with hvalid
  · rw [fromStream_print_of_valid hvalid]
  · exact fromStream_print_of_not_valid hvalid

end SpanContext

end Tracing
