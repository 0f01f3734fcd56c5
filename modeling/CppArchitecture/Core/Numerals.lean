import Mathlib.Data.List.TakeWhile
import Mathlib.Data.Nat.Digits.Lemmas
import Mathlib.Tactic.IntervalCases

/-!
# Numerals

Numbers are printed with the digits `0` to `9` and `a` to `f`, and read as by `std::stoll`: blanks
and a sign may precede the digits, and what comes after them is ignored.
-/

namespace Core

/-- The characters of a text. -/
def text (s : String) : List UInt8 := s.toList.map Char.toUInt8

/-! ### Digits -/

/-- The digits of a number, the highest first. -/
def digits (b n : ℕ) : List ℕ := if n = 0 then [0] else (Nat.digits b n).reverse

/-- The number with the given digits, the highest first. -/
def ofDigits (b : ℕ) (ds : List ℕ) : ℕ := ds.foldl (fun n d => b * n + d) 0

/-- `std::setw(width)` with `std::setfill('0')` -/
def pad (width : ℕ) (ds : List ℕ) : List ℕ := List.replicate (width - ds.length) 0 ++ ds

/-- The character of a digit. -/
def digitChar (d : ℕ) : UInt8 := if d < 10 then .ofNat (48 + d) else .ofNat (87 + d)

/-- A number as a stream prints it in base `b`. -/
def numeral (b n : ℕ) : List UInt8 := (digits b n).map digitChar

/-- An integer as a stream prints it. -/
def decimal (z : ℤ) : List UInt8 := if z < 0 then 45 :: numeral 10 z.natAbs else numeral 10 z.natAbs

/-- `std::isspace` -/
def isSpace (c : UInt8) : Bool := c = 32 || (9 ≤ c && c ≤ 13)

/-- `std::isdigit` -/
def isDigit (c : UInt8) : Bool := 48 ≤ c && c ≤ 57

/-- What `std::stoll` throws. -/
inductive StollError where
  | invalidArgument
  | outOfRange
  deriving DecidableEq, Repr

/-- The sign of a number, and what comes after it. -/
def sign : List UInt8 → ℤ × List UInt8
  | 45 :: cs => (-1, cs)
  | 43 :: cs => (1, cs)
  | cs => (1, cs)

/-- `std::stoll` -/
def stoll (cs : List UInt8) : Except StollError ℤ :=
  let (s, cs) := sign (cs.dropWhile isSpace)
  let ds := cs.takeWhile isDigit
  let z := s * ofDigits 10 (ds.map fun c => c.toNat - 48)
  if ds = [] then .error .invalidArgument
  else if z < -2 ^ 63 ∨ 2 ^ 63 ≤ z then .error .outOfRange
  else .ok z

variable {b n d width : ℕ} {ds es : List ℕ} {c : UInt8} {cs : List UInt8}

/-! ### Reading what has been printed -/

@[simp] lemma ofDigits_singleton : ofDigits b [d] = d := by simp [ofDigits]

lemma ofDigits_append : ofDigits b (ds ++ es) = b ^ es.length * ofDigits b ds + ofDigits b es := by
  induction es using List.reverseRecOn with
  | nil => simp [ofDigits]
  | append_singleton es e ih =>
    have hsnoc : ∀ fs : List ℕ, ofDigits b (fs ++ [e]) = b * ofDigits b fs + e := by
      intro fs
      simp [ofDigits]
    rw [← List.append_assoc, hsnoc, hsnoc, ih, List.length_append, List.length_singleton]
    ring

lemma ofDigits_digits (b n : ℕ) : ofDigits b (digits b n) = n := by
  rw [digits]
  split_ifs with hn
  · simp [hn]
  · rw [ofDigits, List.foldl_reverse]
    have h := Nat.ofDigits_digits b n
    rw [Nat.ofDigits_eq_foldr] at h
    simpa [add_comm] using h

lemma ofDigits_pad : ofDigits b (pad width ds) = ofDigits b ds := by
  have hzero : ∀ k, ofDigits b (List.replicate k 0) = 0 := by
    intro k
    induction k with
    | zero => rfl
    | succ k ih => rw [List.replicate_succ', ofDigits_append, ih]; simp
  rw [pad, ofDigits_append, hzero, mul_zero, zero_add]

lemma digits_ne_nil : digits b n ≠ [] := by
  rw [digits]
  split_ifs with hn
  · simp
  · simpa [Nat.digits_eq_nil_iff_eq_zero] using hn

lemma lt_of_mem_digits (hb : 1 < b) (hd : d ∈ digits b n) : d < b := by
  rw [digits] at hd
  split_ifs at hd with hn
  · rw [List.mem_singleton.mp hd]
    omega
  · exact Nat.digits_lt_base hb (List.mem_reverse.mp hd)

lemma digits_of_lt (hn : n < b) : digits b n = [n] := by
  rw [digits]
  split_ifs with hzero
  · rw [hzero]
  · rw [Nat.digits_of_lt b n hzero hn, List.reverse_singleton]

/-- The last digit of a number, and those before it. -/
lemma digits_mul_add (hb : 1 < b) (hd : d < b) (hn : 0 < n) :
    digits b (b * n + d) = digits b n ++ [d] := by
  have hpos : 0 < b * n := Nat.mul_pos (by omega) hn
  rw [digits, digits, if_neg (by omega), if_neg hn.ne', add_comm,
    Nat.digits_add b hb d n hd (.inr hn.ne'), List.reverse_cons]

lemma length_digits_le (hb : 1 < b) (hwidth : 0 < width) (hn : n < b ^ width) :
    (digits b n).length ≤ width := by
  rw [digits]
  split_ifs
  · exact hwidth
  · rw [List.length_reverse]
    exact (Nat.digits_length_le_iff hb n).mpr hn

lemma length_pad (h : ds.length ≤ width) : (pad width ds).length = width := by
  rw [pad, List.length_append, List.length_replicate]
  omega

lemma toNat_digitChar (hd : d < 10) : (digitChar d).toNat = 48 + d := by
  interval_cases d <;> rfl

lemma isDigit_digitChar (hd : d < 10) : isDigit (digitChar d) = true := by
  interval_cases d <;> rfl

/-- The value of the digits of a number in base ten. -/
lemma ofDigits_numeral :
    ofDigits 10 ((numeral 10 n).map fun c => c.toNat - 48) = n := by
  have hvalue : (numeral 10 n).map (fun c => c.toNat - 48) = digits 10 n := by
    rw [numeral, List.map_map]
    conv_rhs => rw [← List.map_id (digits 10 n)]
    refine List.map_congr_left fun d hd => ?_
    rw [Function.comp_apply, toNat_digitChar (lt_of_mem_digits (by decide) hd)]
    exact Nat.add_sub_cancel_left _ _
  rw [hvalue, ofDigits_digits]

lemma isDigit_of_mem_numeral (hc : c ∈ numeral 10 n) : isDigit c = true := by
  obtain ⟨d, hd, rfl⟩ := List.mem_map.mp hc
  exact isDigit_digitChar (lt_of_mem_digits (by decide) hd)

lemma numeral_ne_nil : numeral 10 n ≠ [] := by
  rw [numeral, ne_eq, List.map_eq_nil_iff]
  exact digits_ne_nil

lemma isSpace_of_isDigit (hc : isDigit c = true) : isSpace c = false := by
  have hlow : 48 ≤ c.toNat := by
    rw [isDigit, Bool.and_eq_true, decide_eq_true_iff] at hc
    exact UInt8.le_iff_toNat_le.mp hc.1
  simp [isSpace, UInt8.le_iff_toNat_le, ← UInt8.toNat_inj]
  omega

lemma sign_of_isDigit (hc : isDigit c = true) : sign (c :: cs) = (1, c :: cs) := by
  rw [sign.eq_def]
  split
  · next h =>
    cases h
    cases hc
  · next h =>
    cases h
    cases hc
  · rfl

lemma takeWhile_numeral (hcs : ∀ c, cs.head? = some c → isDigit c = false) :
    (numeral 10 n ++ cs).takeWhile isDigit = numeral 10 n := by
  rw [List.takeWhile_append_of_pos fun c hc => isDigit_of_mem_numeral hc]
  cases cs with
  | nil => simp
  | cons c cs =>
    rw [List.takeWhile_cons_of_neg (by simp [hcs c rfl]), List.append_nil]

/-- `std::stoll` reads back what has been printed, whatever comes after it but a digit. -/
lemma stoll_decimal (z : ℤ) (hcs : ∀ c, cs.head? = some c → isDigit c = false) :
    stoll (decimal z ++ cs) =
      if z < -2 ^ 63 ∨ 2 ^ 63 ≤ z then .error .outOfRange else .ok z := by
  have hread : ∀ s : ℤ, s * z.natAbs = z →
      sign ((decimal z ++ cs).dropWhile isSpace) = (s, numeral 10 z.natAbs ++ cs) →
      stoll (decimal z ++ cs) =
        if z < -2 ^ 63 ∨ 2 ^ 63 ≤ z then .error .outOfRange else .ok z := by
    intro s hs hsign
    simp only [stoll, hsign, takeWhile_numeral hcs, ofDigits_numeral, if_neg numeral_ne_nil, hs]
  by_cases hneg : z < 0
  · refine hread (-1) (by omega) ?_
    rw [decimal, if_pos hneg]
    rfl
  · refine hread 1 (by omega) ?_
    rw [decimal, if_neg hneg]
    obtain ⟨c, ds, hds⟩ := List.exists_cons_of_ne_nil (numeral_ne_nil (n := z.natAbs))
    have hc : isDigit c = true := by
      refine isDigit_of_mem_numeral (n := z.natAbs) ?_
      rw [hds]
      exact List.mem_cons_self
    rw [hds, List.cons_append, List.dropWhile_cons_of_neg (by simp [isSpace_of_isDigit hc]),
      sign_of_isDigit hc]

/-- What `std::stoll` returns is a value of its type. -/
lemma stoll_range {z : ℤ} (h : stoll cs = .ok z) : -2 ^ 63 ≤ z ∧ z < 2 ^ 63 := by
  simp only [stoll] at h
  split_ifs at h with hds hz
  cases h
  omega

/-- The numeral of an integer is followed by what no digit is. -/
lemma notMem_decimal {z : ℤ} (hc : isDigit c = false) (hminus : c ≠ 45) : c ∉ decimal z := by
  have hnumeral : c ∉ numeral 10 z.natAbs := by
    intro hmem
    rw [isDigit_of_mem_numeral hmem] at hc
    cases hc
  rw [decimal]
  split_ifs
  · rw [List.mem_cons, not_or]
    exact ⟨hminus, hnumeral⟩
  · exact hnumeral

end Core
