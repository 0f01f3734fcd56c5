import CppArchitecture.Core.Search
import Mathlib.Algebra.Order.Ring.Abs
import Mathlib.Data.List.MinMax
import Mathlib.Order.Bounds.Basic

/-!
# The imperative temperature search

`imperative_aka_bad` looks for the first temperature from which a later one differs by more than
five degrees, in two nested loops over indices of type `std::size_t`. For an empty vector the
bound `temperatures.size() - 1` of the outer loop wraps to the largest index, but the inner loop
is never entered, so no element is read.
-/

namespace Temperatures

open Core

variable {T : Type} [Ring T] [LinearOrder T]

/-- An element past the end of the vector is read. -/
inductive Fault where
  | outOfBounds
  deriving DecidableEq, Repr

/-- `temperatures.size()` -/
def size (temperatures : List T) : UInt64 := UInt64.ofNat temperatures.length

/-- `temperatures[i]` -/
def element (temperatures : List T) (i : UInt64) : Except Fault T :=
  match temperatures[i.toNat]? with
  | some t => .ok t
  | none => .error .outOfBounds

/-- The test of the searches, `std::abs(first - second) > 5`. -/
def farApart (first second : T) : Bool := |first - second| > 5

/-- The body of the inner loop, which returns `i` from the function. -/
def compare (temperatures : List T) (i j : UInt64) : Except Fault (Option UInt64) := do
  let first ← element temperatures i
  let second ← element temperatures j
  if farApart first second then return some i else return none

/-- `for (std::size_t j = i + 1; j < temperatures.size(); ++j)` -/
def innerLoop (temperatures : List T) (i : UInt64) : Except Fault (Option UInt64) :=
  forWords (compare temperatures i) (size temperatures) (i + 1)

/-- `imperative_aka_bad`, for any vector of temperatures. -/
def imperativeAkaBad (temperatures : List T) : Except Fault (Option UInt64) :=
  forWords (innerLoop temperatures) (size temperatures - 1) 0

/-- The temperature at `i` differs from the one at `j` by more than five degrees. -/
def Apart (temperatures : List T) (i j : ℕ) : Prop :=
  ∃ x y, temperatures[i]? = some x ∧ temperatures[j]? = some y ∧ |x - y| > 5

/-- Some later temperature differs from the one at `i` by more than five degrees. -/
def Deviates (temperatures : List T) (i : ℕ) : Prop :=
  ∃ j, i < j ∧ Apart temperatures i j

/-! ### The loops -/

section

variable {temperatures : List T} {i j : UInt64}

omit [Ring T] [LinearOrder T] in
lemma toNat_size (hlen : temperatures.length < 2 ^ 64) :
    (size temperatures).toNat = temperatures.length :=
  UInt64.toNat_ofNat_of_lt' hlen

omit [Ring T] [LinearOrder T] in
/-- The index of an element is a word. -/
lemma toNat_ofNat_of_lt_length {k : ℕ} (hlen : temperatures.length < 2 ^ 64)
    (hk : k < temperatures.length) : (UInt64.ofNat k).toNat = k :=
  UInt64.toNat_ofNat_of_lt' (hk.trans hlen)

omit [Ring T] [LinearOrder T] in
lemma element_of_lt (h : i.toNat < temperatures.length) :
    element temperatures i = .ok temperatures[i.toNat] := by
  simp [element, h]

open Classical in
/-- Two elements of the vector are compared. -/
lemma compare_run (hi : i.toNat < temperatures.length) (hj : j.toNat < temperatures.length) :
    compare temperatures i j =
      .ok (if Apart temperatures i.toNat j.toNat then some i else none) := by
  have hapart : Apart temperatures i.toNat j.toNat ↔
      farApart temperatures[i.toNat] temperatures[j.toNat] = true := by
    simp [Apart, farApart, hi, hj]
  simp only [compare, element_of_lt hi, element_of_lt hj]
  change (if farApart temperatures[i.toNat] temperatures[j.toNat] then pure (some i)
    else pure none) = _
  by_cases hxy : farApart temperatures[i.toNat] temperatures[j.toNat] = true
  · rw [if_pos hxy, if_pos (hapart.mpr hxy)]
    rfl
  · rw [if_neg hxy, if_neg (hapart.not.mpr hxy)]
    rfl

open Classical in
/-- The inner loop reads within the vector, and returns `i` if the temperature there deviates. -/
lemma innerLoop_run (hlen : temperatures.length < 2 ^ 64) (hi : i < size temperatures - 1) :
    innerLoop temperatures i = .ok (if Deviates temperatures i.toNat then some i else none) := by
  -- the indices of the inner loop are those after `i`
  have hafter : ∀ j : UInt64, i + 1 ≤ j ↔ i.toNat < j.toNat := by
    intro j
    rw [UInt64.le_iff_toNat_le, toNat_succ_of_lt hi, Nat.succ_le_iff]
  have hwithin : ∀ j : UInt64, j < size temperatures ↔ j.toNat < temperatures.length := by
    intro j
    rw [UInt64.lt_iff_toNat_lt, toNat_size hlen]
  have hbody : ∀ j, i + 1 ≤ j → j < size temperatures → compare temperatures i j =
      .ok (if Apart temperatures i.toNat j.toNat then some i else none) := by
    intro j hij hj
    have hjn := (hwithin j).mp hj
    exact compare_run (((hafter j).mp hij).trans hjn) hjn
  rcases forWords_search hbody with ⟨j, hij, hj, hapart, _, hrun⟩ | ⟨hnone, hrun⟩
  · rw [innerLoop, hrun, if_pos ⟨j.toNat, (hafter j).mp hij, hapart⟩]
  · rw [innerLoop, hrun, if_neg]
    rintro ⟨l, hil, x, y, hx, hy, hxy⟩
    have hl : l < temperatures.length := (List.getElem?_eq_some_iff.mp hy).1
    have hword := toNat_ofNat_of_lt_length hlen hl
    refine hnone (UInt64.ofNat l) ?_ ?_ ?_
    · rwa [hafter, hword]
    · rwa [hwithin, hword]
    · rw [hword]
      exact ⟨x, y, hx, hy, hxy⟩

/-- A temperature that deviates stands before the last one. -/
lemma Deviates.succ_lt {k : ℕ} (h : Deviates temperatures k) : k + 1 < temperatures.length := by
  obtain ⟨l, hkl, x, y, _, hy, _⟩ := h
  have hl : l < temperatures.length := (List.getElem?_eq_some_iff.mp hy).1
  omega

/-- The search returns the first temperature that deviates, or none if none does. -/
lemma imperativeAkaBad_run (hlen : temperatures.length < 2 ^ 64) :
    (∃ i : UInt64, IsLeast {k | Deviates temperatures k} i.toNat ∧
      imperativeAkaBad temperatures = .ok (some i)) ∨
    ((∀ k, ¬ Deviates temperatures k) ∧ imperativeAkaBad temperatures = .ok none) := by
  classical
  -- the outer loop goes through every index that has a later one
  have hwithin : ∀ k, Deviates temperatures k →
      (UInt64.ofNat k).toNat = k ∧ UInt64.ofNat k < size temperatures - 1 := by
    intro k hk
    have hlt := hk.succ_lt
    have hword := toNat_ofNat_of_lt_length hlen (Nat.lt_of_succ_lt hlt)
    have hone : (1 : UInt64) ≤ size temperatures := by
      rw [UInt64.le_iff_toNat_le, toNat_size hlen, UInt64.toNat_one]
      omega
    refine ⟨hword, ?_⟩
    rw [UInt64.lt_iff_toNat_lt, hword, UInt64.toNat_sub_of_le _ _ hone, toNat_size hlen,
      UInt64.toNat_one]
    omega
  have hbody : ∀ i, 0 ≤ i → i < size temperatures - 1 → innerLoop temperatures i =
      .ok (if Deviates temperatures i.toNat then some i else none) :=
    fun i _ hi => innerLoop_run hlen hi
  rcases forWords_search hbody with ⟨i, _, hi, hdev, hfirst, hrun⟩ | ⟨hnone, hrun⟩
  · refine .inl ⟨i, ⟨hdev, ?_⟩, hrun⟩
    intro k hk
    by_contra hki
    obtain ⟨hword, _⟩ := hwithin k hk
    refine hfirst (UInt64.ofNat k) UInt64.zero_le ?_ (by rwa [hword])
    rw [UInt64.lt_iff_toNat_lt, hword]
    exact not_le.mp hki
  · refine .inr ⟨?_, hrun⟩
    intro k hk
    obtain ⟨hword, hlt⟩ := hwithin k hk
    exact hnone (UInt64.ofNat k) UInt64.zero_le hlt (by rwa [hword])

end

/-! ### The spread -/

section

variable [IsStrictOrderedRing T] {temperatures : List T}

/-- Two temperatures that are apart make the earlier one deviate. -/
lemma exists_deviates_iff : (∃ k, Deviates temperatures k) ↔
    ∃ x ∈ temperatures, ∃ y ∈ temperatures, |x - y| > 5 := by
  constructor
  · rintro ⟨k, l, _, x, y, hx, hy, hxy⟩
    exact ⟨x, List.mem_of_getElem? hx, y, List.mem_of_getElem? hy, hxy⟩
  · rintro ⟨x, hx, y, hy, hxy⟩
    obtain ⟨k, hk⟩ := List.mem_iff_getElem?.mp hx
    obtain ⟨l, hl⟩ := List.mem_iff_getElem?.mp hy
    rcases lt_trichotomy k l with hkl | rfl | hlk
    · exact ⟨k, l, hkl, x, y, hk, hl, hxy⟩
    · obtain rfl : x = y := Option.some.inj (hk.symm.trans hl)
      rw [sub_self, abs_zero] at hxy
      exact absurd hxy (not_lt.mpr (Nat.ofNat_nonneg 5))
    · exact ⟨l, k, hlk, y, x, hl, hk, by rwa [abs_sub_comm]⟩

/-- No temperature deviates exactly if the largest and the smallest are at most five degrees
apart. -/
lemma forall_not_deviates_iff : (∀ k, ¬ Deviates temperatures k) ↔ temperatures = [] ∨
    ∃ lo hi, IsLeast {t | t ∈ temperatures} lo ∧ IsGreatest {t | t ∈ temperatures} hi ∧
      hi - lo ≤ 5 := by
  rw [← not_exists, exists_deviates_iff]
  constructor
  · intro h
    by_cases hne : temperatures = []
    · exact .inl hne
    · have hpos : 0 < temperatures.length := List.length_pos_iff.mpr hne
      refine .inr ⟨temperatures.minimum_of_length_pos hpos,
        temperatures.maximum_of_length_pos hpos,
        ⟨List.minimum_of_length_pos_mem hpos, fun t ht => ?_⟩,
        ⟨List.maximum_of_length_pos_mem hpos, fun t ht => ?_⟩, ?_⟩
      · exact List.minimum_of_length_pos_le_of_mem ht hpos
      · exact List.le_maximum_of_length_pos_of_mem ht hpos
      · by_contra hspread
        exact h ⟨_, List.maximum_of_length_pos_mem hpos, _, List.minimum_of_length_pos_mem hpos,
          lt_of_lt_of_le (not_le.mp hspread) (le_abs_self _)⟩
  · rintro (rfl | ⟨lo, hi, hlo, hhi, hspread⟩) ⟨x, hx, y, hy, hxy⟩
    · cases hx
    · refine absurd hxy (not_lt.mpr ((abs_sub_le_iff.mpr ⟨?_, ?_⟩).trans hspread))
      · exact sub_le_sub (hhi.2 hx) (hlo.2 hy)
      · exact sub_le_sub (hhi.2 hy) (hlo.2 hx)

end

/-- The search reads within the vector. It returns the first temperature that deviates, and
`nullopt` if and only if the temperatures spread over at most five degrees. -/
theorem imperativeAkaBad_spec [IsStrictOrderedRing T] (temperatures : List T)
    (hlen : temperatures.length < 2 ^ 64) :
    ∃ result, imperativeAkaBad temperatures = .ok result ∧
      (∀ i : UInt64, result = some i ↔ IsLeast {k | Deviates temperatures k} i.toNat) ∧
      (result = none ↔ temperatures = [] ∨ ∃ lo hi, IsLeast {t | t ∈ temperatures} lo ∧
        IsGreatest {t | t ∈ temperatures} hi ∧ hi - lo ≤ 5) := by
  rw [← forall_not_deviates_iff]
  rcases imperativeAkaBad_run hlen with ⟨i, hleast, hrun⟩ | ⟨hnone, hrun⟩
  · refine ⟨some i, hrun, fun j => ⟨?_, fun hj => ?_⟩, ⟨nofun, fun h => ?_⟩⟩
    · rintro ⟨⟩
      exact hleast
    · rw [UInt64.toNat_inj.mp (hleast.unique hj)]
    · exact absurd hleast.1 (h i.toNat)
  · refine ⟨none, hrun, fun j => ⟨nofun, fun hj => ?_⟩, ⟨fun _ => hnone, fun _ => rfl⟩⟩
    exact absurd hj.1 (hnone j.toNat)

/-- The first temperature of the program is eleven degrees below its fourth. -/
theorem imperativeAkaBad_spec_program :
    imperativeAkaBad ([-3, 2, 0, 8, -10, -7] : List ℤ) = .ok (some 0) := by
  obtain ⟨result, hrun, hsome, _⟩ := imperativeAkaBad_spec ([-3, 2, 0, 8, -10, -7] : List ℤ)
    (by decide)
  have hleast : IsLeast {k | Deviates ([-3, 2, 0, 8, -10, -7] : List ℤ) k} (0 : UInt64).toNat :=
    ⟨⟨3, by decide, -3, 8, rfl, rfl, by decide⟩, fun k _ => Nat.zero_le k⟩
  rw [hrun, (hsome 0).mpr hleast]

end Temperatures
