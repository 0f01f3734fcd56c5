import CppArchitecture.Tracing.Basic

/-!
# Texts in a query

A text is escaped before it is put in a query or in a header. The number of a character that is
escaped is printed without padding and, since characters are signed, with eight digits from 128 on.
What is unescaped of it is then another text.
-/

namespace Tracing

open Core

namespace URI

/-- `std::isalpha` -/
def isAlpha (ch : UInt8) : Bool := isUpper ch || (97 ≤ ch && ch ≤ 122)

def isUnreserved (ch : UInt8) : Bool :=
  isAlpha ch || isDigit ch || ch = 45 || ch = 46 || ch = 95 || ch = 126

/-- The effect of `std::uppercase` on a digit. -/
def uppercase (ch : UInt8) : UInt8 := if 97 ≤ ch then ch - 32 else ch

/-- `oss << '%' << std::uppercase << std::hex << static_cast<int>(ch)` -/
def escape (ch : UInt8) : List UInt8 :=
  37 :: (numeral 16 (ch.toBitVec.signExtend 32).toNat).map uppercase

def queryEscape (input : List UInt8) : List UInt8 :=
  input.flatMap fun ch => if isUnreserved ch then [ch] else escape ch

def decodeHex (ch : UInt8) : ℕ :=
  if 48 ≤ ch ∧ ch ≤ 57 then ch.toNat - 48
  else if 65 ≤ ch ∧ ch ≤ 70 then ch.toNat - 65 + 10
  else ch.toNat - 97 + 10

/-- What has been read of an escaped character. -/
inductive State where
  | default
  | percent
  | firstHex (hex : ℕ)
  deriving DecidableEq, Repr

/-- The state after a character, and what is put out. -/
def State.next : State → UInt8 → State × List UInt8
  | default, ch => if ch = 37 then (percent, []) else (default, [ch])
  | percent, ch => if isHex ch then (firstHex (decodeHex ch &&& 0xff), []) else (default, [37, ch])
  | firstHex hex, ch =>
    if isHex ch then (default, [.ofNat (hex <<< 4 ||| (decodeHex ch &&& 0xff))])
    else (default, 37 :: numeral 16 hex ++ [ch])

/-- The loop of `queryUnescape`. -/
def unescape : State → List UInt8 → List UInt8
  | _, [] => []
  | state, ch :: input => (state.next ch).2 ++ unescape (state.next ch).1 input

def queryUnescape (input : List UInt8) : List UInt8 := unescape .default input

variable {a b c e : UInt8} {s r p w : List UInt8} {d n : ℕ}

/-! ### What is unescaped -/

lemma queryUnescape_cons (hc : c ≠ 37) : queryUnescape (c :: r) = c :: queryUnescape r := by
  simp [queryUnescape, unescape, State.next, hc]

/-- A text without `%` has nothing escaped in it. -/
lemma queryUnescape_of_notMem (h : (37 : UInt8) ∉ r) : queryUnescape r = r := by
  induction r with
  | nil => rfl
  | cons c r ih =>
    rw [List.mem_cons, not_or] at h
    rw [queryUnescape_cons (Ne.symm h.1), ih h.2]

lemma queryUnescape_hex (ha : isHex a = true) (hb : isHex b = true) :
    queryUnescape (37 :: a :: b :: r) =
      .ofNat ((decodeHex a &&& 0xff) <<< 4 ||| (decodeHex b &&& 0xff)) :: queryUnescape r := by
  simp [queryUnescape, unescape, State.next, ha, hb]

lemma queryUnescape_one_hex (ha : isHex a = true) (hb : isHex b = false) :
    queryUnescape (37 :: a :: b :: r) =
      37 :: (numeral 16 (decodeHex a &&& 0xff) ++ b :: queryUnescape r) := by
  simp [queryUnescape, unescape, State.next, ha, hb]

lemma queryUnescape_one_hex_end (ha : isHex a = true) : queryUnescape [37, a] = [] := by
  simp [queryUnescape, unescape, State.next, ha]

/-! ### What is escaped -/

/-- The digit `d` in an escaped character. -/
def upperDigit (d : ℕ) : UInt8 := uppercase (digitChar d)

lemma isHex_upperDigit (hd : d < 16) : isHex (upperDigit d) = true := by
  interval_cases d <;> rfl

lemma decodeHex_upperDigit (hd : d < 16) : decodeHex (upperDigit d) = d := by
  interval_cases d <;> rfl

lemma isUnreserved_of_isHex (hc : isHex c = true) : isUnreserved c = true := by
  simp only [isHex, isUnreserved, isAlpha, isUpper, isDigit, Bool.or_eq_true, Bool.and_eq_true,
    decide_eq_true_eq, UInt8.le_iff_toNat_le] at hc ⊢
  simp only [UInt8.reduceToNat] at hc ⊢
  omega

lemma toNat_of_isUnreserved (hc : isUnreserved c = true) : 45 ≤ c.toNat ∧ c.toNat < 127 := by
  simp only [isUnreserved, isAlpha, isUpper, isDigit, Bool.or_eq_true, Bool.and_eq_true,
    decide_eq_true_eq, UInt8.le_iff_toNat_le, ← UInt8.toNat_inj] at hc
  simp only [UInt8.reduceToNat] at hc
  omega

lemma not_isUnreserved (hc : c.toNat < 45 ∨ 127 ≤ c.toNat) : ¬ isUnreserved c = true := by
  intro hplain
  have hrange := toNat_of_isUnreserved hplain
  omega

lemma ne_percent_of_isUnreserved (hc : isUnreserved c = true) : c ≠ 37 := by
  rintro rfl
  cases hc

/-- A character that is unescaped to itself. -/
def Restored (ch : UInt8) : Prop := isUnreserved ch = true ∨ (16 ≤ ch.toNat ∧ ch.toNat < 128)

instance (ch : UInt8) : Decidable (Restored ch) := inferInstanceAs (Decidable (_ ∨ _))

lemma escape_eq : escape c = 37 :: (digits 16 (c.toBitVec.signExtend 32).toNat).map upperDigit := by
  rw [escape, numeral, List.map_map]
  rfl

lemma toNat_signExtend_of_lt (hc : c.toNat < 128) : (c.toBitVec.signExtend 32).toNat = c.toNat := by
  have hmsb : c.toBitVec.msb = false := by
    rw [BitVec.msb_eq_decide]
    simpa using hc
  rw [BitVec.toNat_signExtend]
  simp [hmsb]

lemma toNat_signExtend_of_le (hc : 128 ≤ c.toNat) :
    (c.toBitVec.signExtend 32).toNat = 4294967040 + c.toNat := by
  have hmsb : c.toBitVec.msb = true := by
    rw [BitVec.msb_eq_decide]
    simpa using hc
  have hlt := c.toNat_lt
  rw [BitVec.toNat_signExtend]
  simp [hmsb]
  omega

lemma escape_of_lt_16 (hc : c.toNat < 16) : escape c = [37, upperDigit c.toNat] := by
  rw [escape_eq, toNat_signExtend_of_lt (by omega), digits_of_lt hc]
  rfl

lemma escape_of_lt_128 (hlow : 16 ≤ c.toNat) (hhigh : c.toNat < 128) :
    escape c = [37, upperDigit (c.toNat / 16), upperDigit (c.toNat % 16)] := by
  have hdigits := digits_mul_add (b := 16) (by decide) (Nat.mod_lt c.toNat (by decide))
    (Nat.div_pos hlow (by decide))
  rw [Nat.div_add_mod, digits_of_lt (n := c.toNat / 16) (by omega)] at hdigits
  rw [escape_eq, toNat_signExtend_of_lt hhigh, hdigits]
  rfl

/-- From 128 on, there are eight digits, and the first of them are those of a negative number. -/
lemma escape_of_le_128 (hc : 128 ≤ c.toNat) : escape c = [37, 70, 70, 70, 70, 70, 70,
    upperDigit (c.toNat / 16), upperDigit (c.toNat % 16)] := by
  have hlt := c.toNat_lt
  have hlast := digits_mul_add (b := 16) (n := 16 * 16777215 + c.toNat / 16) (by decide)
    (Nat.mod_lt c.toNat (by decide)) (by omega)
  have hfirst := digits_mul_add (b := 16) (n := 16777215) (d := c.toNat / 16) (by decide)
    (by omega) (by decide)
  have hones : digits 16 16777215 = [15, 15, 15, 15, 15, 15] := by
    norm_num [digits]
  have hnumber : 4294967040 + c.toNat =
      16 * (16 * 16777215 + c.toNat / 16) + c.toNat % 16 := by omega
  rw [escape_eq, toNat_signExtend_of_le hc, hnumber, hlast, hfirst, hones]
  rfl

lemma queryEscape_cons_of_isUnreserved (hc : isUnreserved c = true) :
    queryEscape (c :: s) = c :: queryEscape s := by
  simp [queryEscape, hc]

lemma queryEscape_cons_of_not_isUnreserved (hc : ¬ isUnreserved c = true) :
    queryEscape (c :: s) = escape c ++ queryEscape s := by
  simp [queryEscape, hc]

/-! ### What is escaped and unescaped again -/

lemma hex_eq (hd : d < 16) (hn : n < 16) : (d &&& 0xff) <<< 4 ||| (n &&& 0xff) = 16 * d + n := by
  have hmod : ∀ k < 16, k &&& 0xff = k := by
    intro k hk
    rw [Nat.and_two_pow_sub_one_eq_mod k 8]
    exact Nat.mod_eq_of_lt (by omega)
  rw [hmod d hd, hmod n hn, ← Nat.shiftLeft_add_eq_or_of_lt hn, Nat.shiftLeft_eq]
  omega

lemma reread_of_restored (hc : Restored c) :
    queryUnescape (queryEscape (c :: s)) = c :: queryUnescape (queryEscape s) := by
  by_cases hplain : isUnreserved c = true
  · rw [queryEscape_cons_of_isUnreserved hplain,
      queryUnescape_cons (ne_percent_of_isUnreserved hplain)]
  · obtain ⟨hlow, hhigh⟩ := hc.resolve_left hplain
    have ha : c.toNat / 16 < 16 := by omega
    have hb : c.toNat % 16 < 16 := Nat.mod_lt _ (by decide)
    rw [queryEscape_cons_of_not_isUnreserved hplain, escape_of_lt_128 hlow hhigh]
    simp only [List.cons_append, List.nil_append]
    rw [queryUnescape_hex (isHex_upperDigit ha) (isHex_upperDigit hb), decodeHex_upperDigit ha,
      decodeHex_upperDigit hb, hex_eq ha hb, Nat.div_add_mod, UInt8.ofNat_toNat]

lemma reread_append (hw : ∀ c ∈ w, Restored c) :
    queryUnescape (queryEscape (w ++ s)) = w ++ queryUnescape (queryEscape s) := by
  induction w with
  | nil => rfl
  | cons c w ih =>
    obtain ⟨hc, hw⟩ := List.forall_mem_cons.mp hw
    rw [List.cons_append, reread_of_restored hc, ih hw, List.cons_append]

/-- A character from 128 on becomes seven characters. -/
lemma reread_of_le_128 (hc : 128 ≤ c.toNat) :
    ∃ w, w ≠ [] ∧ (∀ c ∈ w, Restored c) ∧
      queryUnescape (queryEscape (c :: s)) = 255 :: (w ++ queryUnescape (queryEscape s)) := by
  have hlt := c.toNat_lt
  have hplain := not_isUnreserved (c := c) (.inr (by omega))
  have hdigit : ∀ d < 16, isUnreserved (upperDigit d) = true := fun d hd =>
    isUnreserved_of_isHex (isHex_upperDigit hd)
  have ha := hdigit (c.toNat / 16) (by omega)
  have hb := hdigit (c.toNat % 16) (by omega)
  refine ⟨[70, 70, 70, 70, upperDigit (c.toNat / 16), upperDigit (c.toNat % 16)], nofun, ?_, ?_⟩
  · intro d hd
    simp only [List.mem_cons, List.not_mem_nil, or_false] at hd
    rcases hd with rfl | rfl | rfl | rfl | rfl | rfl
    all_goals first | exact .inl rfl | exact .inl ha | exact .inl hb
  · have hF : (70 : UInt8) ≠ 37 := by decide
    rw [queryEscape_cons_of_not_isUnreserved hplain, escape_of_le_128 hc]
    simp only [List.cons_append, List.nil_append]
    rw [queryUnescape_hex rfl rfl, queryUnescape_cons hF, queryUnescape_cons hF,
      queryUnescape_cons hF, queryUnescape_cons hF,
      queryUnescape_cons (ne_percent_of_isUnreserved ha),
      queryUnescape_cons (ne_percent_of_isUnreserved hb)]
    rfl

/-- A character below 16 takes the next one with it, if that is a hexadecimal digit. -/
lemma reread_of_lt_16_of_isHex (hc : c.toNat < 16) (he : isHex e = true) :
    ∃ d, queryUnescape (queryEscape (c :: e :: s)) = d :: queryUnescape (queryEscape s) := by
  have hplain := not_isUnreserved (c := c) (.inl (by omega))
  rw [queryEscape_cons_of_not_isUnreserved hplain, escape_of_lt_16 hc,
    queryEscape_cons_of_isUnreserved (isUnreserved_of_isHex he)]
  exact ⟨_, queryUnescape_hex (isHex_upperDigit hc) he⟩

lemma reread_of_lt_16_of_not_isHex (hc : c.toNat < 16) (he : isHex e = false) :
    ∃ r, queryUnescape (queryEscape (c :: e :: s)) = 37 :: r := by
  have hplain := not_isUnreserved (c := c) (.inl (by omega))
  rw [queryEscape_cons_of_not_isUnreserved hplain, escape_of_lt_16 hc]
  by_cases heplain : isUnreserved e = true
  · rw [queryEscape_cons_of_isUnreserved heplain]
    exact ⟨_, queryUnescape_one_hex (isHex_upperDigit hc) he⟩
  · rw [queryEscape_cons_of_not_isUnreserved heplain, escape]
    exact ⟨_, queryUnescape_one_hex (isHex_upperDigit hc) rfl⟩

lemma reread_of_lt_16_end (hc : c.toNat < 16) : queryUnescape (queryEscape [c]) = [] := by
  have hplain := not_isUnreserved (c := c) (.inl (by omega))
  rw [queryEscape_cons_of_not_isUnreserved hplain, escape_of_lt_16 hc]
  exact queryUnescape_one_hex_end (isHex_upperDigit hc)

/-- The characters that do not come next where a lost character makes the text longer. -/
lemma ne_of_isHex (hc : isHex c = true) : c ≠ 37 ∧ c ≠ 255 := by
  constructor <;> (rintro rfl; cases hc)

lemma ne_of_lt_16 (hc : c.toNat < 16) : c ≠ 37 ∧ c ≠ 255 := by
  constructor <;> (rintro rfl; exact absurd hc (by decide))

lemma lt_16_or_le_128 (hc : ¬ Restored c) : c.toNat < 16 ∨ 128 ≤ c.toNat := by
  rw [Restored, not_or] at hc
  omega

/-- Characters that are missing at the front of a text are never made up for. -/
lemma ne_append_reread (hw : w ≠ []) (hrestored : ∀ c ∈ w, Restored c) (s : List UInt8) :
    s ≠ w ++ queryUnescape (queryEscape s) := by
  induction hn : s.length using Nat.strong_induction_on generalizing s with
  | _ n ih =>
    intro h
    obtain ⟨t, ht⟩ : ∃ t, s = w ++ t := ⟨_, h⟩
    have hshort : t.length < n := by
      have hpos := List.length_pos_of_ne_nil hw
      rw [← hn, ht, List.length_append]
      omega
    have htail : t = w ++ queryUnescape (queryEscape t) := by
      rw [ht, reread_append hrestored] at h
      exact List.append_cancel_left h
    exact ih t.length hshort t rfl htail

/-- Nor are characters that are too many ever used up: where a character is lost, the text only
gets longer if `%` or the last of all characters comes next. -/
lemma reread_ne_append : ∀ {s w : List UInt8}, w ≠ [] → (∀ c ∈ w, c ≠ 37 ∧ c ≠ 255) →
    queryUnescape (queryEscape s) ≠ w ++ s
  | [], w, hw, _, h => by
    rw [List.append_nil] at h
    exact hw h.symm
  | c :: s, w, hw, hfree, h => by
    have hsplit : ∀ {d r}, d :: r = w ++ c :: s → ∃ w', w = d :: w' ∧ r = w' ++ c :: s :=
      fun h => (List.cons_eq_append_iff.mp h).resolve_left fun hnil => hw hnil.1
    by_cases hc : Restored c
    · -- the first of the characters that are too many is `c`, which is put behind the others
      rw [reread_of_restored hc] at h
      obtain ⟨w, rfl, htail⟩ := hsplit h
      rw [List.append_cons] at htail
      refine reread_ne_append (by simp) ?_ htail
      intro d hd
      rcases List.mem_append.mp hd with hd | hd
      · exact hfree d (List.mem_cons_of_mem c hd)
      · exact hfree d (List.mem_singleton.mp hd ▸ List.mem_cons_self)
    · rcases lt_16_or_le_128 hc with hlow | hhigh
      · match s with
        | [] =>
          rw [reread_of_lt_16_end hlow] at h
          exact List.append_ne_nil_of_left_ne_nil hw _ h.symm
        | e :: s =>
          cases he : isHex e with
          | true =>
            -- one character for two, so that there is one more too many
            obtain ⟨d, hd⟩ := reread_of_lt_16_of_isHex (s := s) hlow he
            rw [hd] at h
            obtain ⟨w, rfl, htail⟩ := hsplit h
            rw [List.append_cons, List.append_cons] at htail
            refine reread_ne_append (by simp) ?_ htail
            intro f hf
            rw [List.append_assoc, List.mem_append] at hf
            rcases hf with hf | hf
            · exact hfree f (List.mem_cons_of_mem d hf)
            · rcases List.mem_pair.mp hf with rfl | rfl
              · exact ne_of_lt_16 hlow
              · exact ne_of_isHex he
          | false =>
            obtain ⟨r, hr⟩ := reread_of_lt_16_of_not_isHex (s := s) hlow he
            rw [hr] at h
            obtain ⟨w, rfl, -⟩ := hsplit h
            exact (hfree 37 List.mem_cons_self).1 rfl
      · obtain ⟨_, -, -, hreread⟩ := reread_of_le_128 (s := s) hhigh
        rw [hreread] at h
        obtain ⟨w, rfl, -⟩ := hsplit h
        exact (hfree 255 List.mem_cons_self).2 rfl

lemma queryUnescape_queryEscape (h : ∀ c ∈ s, Restored c) :
    queryUnescape (queryEscape s) = s := by
  have happend := reread_append (s := []) h
  rwa [List.append_nil, show queryUnescape (queryEscape []) = [] from rfl,
    List.append_nil] at happend

lemma restored_of_reread (h : queryUnescape (queryEscape s) = s) : ∀ c ∈ s, Restored c := by
  induction s with
  | nil => exact nofun
  | cons c s ih =>
    by_cases hc : Restored c
    · rw [reread_of_restored hc] at h
      exact List.forall_mem_cons.mpr ⟨hc, ih (List.tail_eq_of_cons_eq h)⟩
    · rcases lt_16_or_le_128 hc with hlow | hhigh
      · match s with
        | [] =>
          rw [reread_of_lt_16_end hlow] at h
          cases h
        | e :: s =>
          cases he : isHex e with
          | true =>
            obtain ⟨d, hd⟩ := reread_of_lt_16_of_isHex (s := s) hlow he
            rw [hd] at h
            refine absurd (List.tail_eq_of_cons_eq h) (reread_ne_append (w := [e]) nofun ?_)
            intro f hf
            exact List.mem_singleton.mp hf ▸ ne_of_isHex he
          | false =>
            obtain ⟨r, hr⟩ := reread_of_lt_16_of_not_isHex (s := s) hlow he
            rw [hr] at h
            cases List.head_eq_of_cons_eq h
            exact absurd hlow (by decide)
      · -- seven characters for one
        obtain ⟨w, hw, hrestored, hreread⟩ := reread_of_le_128 (s := s) hhigh
        rw [hreread] at h
        exact absurd (List.tail_eq_of_cons_eq h).symm (ne_append_reread hw hrestored s)

/-- A text is restored if every character of it is. -/
theorem queryUnescape_queryEscape_iff :
    queryUnescape (queryEscape s) = s ↔ ∀ c ∈ s, Restored c :=
  ⟨restored_of_reread, queryUnescape_queryEscape⟩

end URI

end Tracing
