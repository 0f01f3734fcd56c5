import Mathlib.Data.List.Sort

/-!
# Outcomes of a sort

What may be assumed of a sort that need not be stable: some permutation of its input, in order
for the comparison. With a comparison by a key, two outcomes for permuted inputs show the same
sequence of keys, and are equal if no two elements share a key.
-/

namespace Core

variable {α κ : Type*}

/-- `ys` is a permutation of `xs` with no element in front of one that compares before it. -/
structure IsSortOf (comp : α → α → Bool) (xs ys : List α) : Prop where
  perm : ys.Perm xs
  ordered : ys.Pairwise fun a b => comp b a = false

/-- `sort(xs, comp, proj)`, which compares what the projection shows of the elements. -/
def IsProjectedSortOf (comp : κ → κ → Bool) (proj : α → κ) (xs ys : List α) : Prop :=
  IsSortOf (fun a b => comp (proj a) (proj b)) xs ys

/-- `greater{}` -/
def greater [LT κ] [DecidableLT κ] (left right : κ) : Bool := decide (left > right)

variable [LinearOrder κ] {key : α → κ} {xs ys : List α}

/-- The keys of a sort by `greater` do not increase. -/
lemma IsProjectedSortOf.keys_ge (h : IsProjectedSortOf greater key xs ys) :
    ys.Pairwise fun a b => key a ≥ key b := by
  apply h.ordered.imp
  intro a b hab
  simpa [greater] using hab

/-- Permuted lists without increasing keys show the same keys. -/
lemma map_eq_of_perm_of_ge (hperm : xs.Perm ys) (hxs : xs.Pairwise fun a b => key a ≥ key b)
    (hys : ys.Pairwise fun a b => key a ≥ key b) : xs.map key = ys.map key := by
  apply List.Perm.eq_of_sortedGE _ _ (hperm.map key)
  · exact (List.pairwise_map.mpr hxs).sortedGE
  · exact (List.pairwise_map.mpr hys).sortedGE

/-- If moreover no two different elements share a key, the lists are equal. -/
lemma eq_of_perm_of_ge (hperm : xs.Perm ys) (hxs : xs.Pairwise fun a b => key a ≥ key b)
    (hys : ys.Pairwise fun a b => key a ≥ key b)
    (hkey : ∀ a ∈ xs, ∀ b ∈ xs, key a = key b → a = b) : xs = ys := by
  refine hperm.eq_of_pairwise ?_ hxs hys
  intro a b ha hb hab hba
  exact hkey a ha b (hperm.mem_iff.mpr hb) (le_antisymm hba hab)

end Core
