import Mathlib.Algebra.BigOperators.Group.List.Basic
import Mathlib.Algebra.Order.Group.Defs
import Mathlib.Algebra.Order.Group.MinMax
import Mathlib.Data.Finset.Lattice.Fold

/-!
# Walks held at zero

A walk that may not go below zero, and its closed form: the sum of all its steps less the
least of its partial sums.
-/

namespace Core

variable {G : Type*} [AddCommGroup G]

/-- The sum of the first `k` steps. -/
def partialSum (xs : List G) (k : ℕ) : G := (xs.take k).sum

@[simp] lemma partialSum_zero (xs : List G) : partialSum xs 0 = 0 := by simp [partialSum]

@[simp] lemma partialSum_length (xs : List G) : partialSum xs xs.length = xs.sum := by
  simp [partialSum]

lemma partialSum_append {xs : List G} (ys : List G) {k : ℕ} (hk : k ≤ xs.length) :
    partialSum (xs ++ ys) k = partialSum xs k := by
  rw [partialSum, List.take_append_of_le_length hk, partialSum]

variable [LinearOrder G]

/-- The walk that stays at zero instead of going below. -/
def clampedWalk (xs : List G) : G := xs.foldl (fun w x => max 0 (w + x)) 0

/-- The least of the partial sums, that of no steps included. -/
def leastPartialSum (xs : List G) : G :=
  (Finset.range (xs.length + 1)).inf' Finset.nonempty_range_add_one (partialSum xs)

lemma leastPartialSum_le (xs : List G) {k : ℕ} (hk : k ≤ xs.length) :
    leastPartialSum xs ≤ partialSum xs k :=
  Finset.inf'_le _ (Finset.mem_range.mpr (Nat.lt_succ_of_le hk))

lemma le_leastPartialSum_iff {xs : List G} {a : G} :
    a ≤ leastPartialSum xs ↔ ∀ k ≤ xs.length, a ≤ partialSum xs k := by
  simp only [leastPartialSum, Finset.le_inf'_iff, Finset.mem_range, Nat.lt_succ_iff]

@[simp] lemma leastPartialSum_nil : leastPartialSum ([] : List G) = 0 := by
  simp [leastPartialSum]

/-- One more step makes one more partial sum. -/
lemma leastPartialSum_snoc (xs : List G) (x : G) :
    leastPartialSum (xs ++ [x]) = min (leastPartialSum xs) (xs.sum + x) := by
  apply le_antisymm
  · refine le_min (le_leastPartialSum_iff.mpr fun k hk => ?_) ?_
    · rw [← partialSum_append [x] hk]
      exact leastPartialSum_le _ (by simp; omega)
    · have h := leastPartialSum_le (xs ++ [x]) le_rfl
      rwa [partialSum_length, List.sum_append, List.sum_singleton] at h
  · refine le_leastPartialSum_iff.mpr fun k hk => ?_
    rw [List.length_append, List.length_singleton] at hk
    rcases Nat.lt_succ_iff_lt_or_eq.mp (Nat.lt_succ_of_le hk) with hlt | rfl
    · have hk' : k ≤ xs.length := Nat.lt_succ_iff.mp hlt
      rw [partialSum_append _ hk']
      exact (min_le_left _ _).trans (leastPartialSum_le xs hk')
    · refine (min_le_right _ _).trans_eq ?_
      simp [partialSum]

@[simp] lemma clampedWalk_nil : clampedWalk ([] : List G) = 0 := rfl

lemma clampedWalk_snoc (xs : List G) (x : G) :
    clampedWalk (xs ++ [x]) = max 0 (clampedWalk xs + x) := by
  simp [clampedWalk]

variable [IsOrderedAddMonoid G]

/-- The closed form of the clamped walk. -/
theorem clampedWalk_eq (xs : List G) : clampedWalk xs = xs.sum - leastPartialSum xs := by
  induction xs using List.reverseRecOn with
  | nil => simp
  | append_singleton xs x ih =>
    rw [clampedWalk_snoc, leastPartialSum_snoc, List.sum_append, List.sum_singleton, ih]
    rcases le_total (leastPartialSum xs) (xs.sum + x) with h | h
    · rw [min_eq_left h, sub_add_eq_add_sub, max_eq_right (sub_nonneg.mpr h)]
    · rw [min_eq_right h, sub_add_eq_add_sub, max_eq_left (sub_nonpos.mpr h), sub_self]

lemma clampedWalk_nonneg (xs : List G) : 0 ≤ clampedWalk xs := by
  rw [clampedWalk_eq, sub_nonneg, ← partialSum_length]
  exact leastPartialSum_le xs le_rfl

end Core
