import CppArchitecture.Core.Integers

/-!
# Binary search

The halving search for the first element that is not less than a value. It needs no order: only
that the elements that are less come first, and it finds where they end. A search from the front
for an equal element ends at the same place if the element there is equal, or there is none.
-/

namespace Core

variable {α : Type}

/-- `std::ranges::lower_bound` on the `len` elements from `first` on. -/
def lowerBoundFrom (less : α → Bool) (xs : List α) (first len : ℕ) : Except Undefined ℕ :=
  if _h : 0 < len then do
    let half := len / 2
    let x ← readAt xs (first + half)
    if less x then lowerBoundFrom less xs (first + half + 1) (len - half - 1)
    else lowerBoundFrom less xs first half
  else return first
termination_by len

/-- `std::ranges::lower_bound` on the whole list. -/
def lowerBound (less : α → Bool) (xs : List α) : Except Undefined ℕ :=
  lowerBoundFrom less xs 0 xs.length

/-- The elements before `k` are less, and no others. -/
structure IsPartitionPoint (less : α → Bool) (xs : List α) (k : ℕ) : Prop where
  le_length : k ≤ xs.length
  less_iff : ∀ i x, xs[i]? = some x → (less x = true ↔ i < k)

variable {less equal : α → Bool} {xs : List α} {first len k : ℕ}

lemma lowerBoundFrom_zero : lowerBoundFrom less xs first 0 = .ok first := by
  rw [lowerBoundFrom, dif_neg (Nat.lt_irrefl 0)]
  rfl

/-- One step halves the range, and keeps the part that the point is in. -/
lemma lowerBoundFrom_of_pos (hk : IsPartitionPoint less xs k) (hpos : 0 < len)
    (hlen : first + len ≤ xs.length) : lowerBoundFrom less xs first len =
      if first + len / 2 < k then
        lowerBoundFrom less xs (first + len / 2 + 1) (len - len / 2 - 1)
      else lowerBoundFrom less xs first (len / 2) := by
  have hmiddle : first + len / 2 < xs.length := by omega
  have hless := hk.less_iff _ _ (List.getElem?_eq_getElem hmiddle)
  rw [lowerBoundFrom, dif_pos hpos]
  simp only [readAt_of_lt hmiddle]
  change (if less xs[first + len / 2] = true then _ else _) = _
  simp only [hless]

/-- The search reads within the list, and returns the point. -/
theorem lowerBoundFrom_run (hk : IsPartitionPoint less xs k) (hfirst : first ≤ k)
    (hlast : k ≤ first + len) (hlen : first + len ≤ xs.length) :
    lowerBoundFrom less xs first len = .ok k := by
  induction len using Nat.strongRecOn generalizing first with
  | ind len ih =>
    rcases Nat.eq_zero_or_pos len with rfl | hpos
    · rw [lowerBoundFrom_zero, Nat.le_antisymm hfirst hlast]
    · rw [lowerBoundFrom_of_pos hk hpos hlen]
      by_cases hmiddle : first + len / 2 < k
      · rw [if_pos hmiddle]
        exact ih _ (by omega) (by omega) (by omega) (by omega)
      · rw [if_neg hmiddle]
        exact ih _ (by omega) hfirst (by omega) (by omega)

lemma lowerBound_run (hk : IsPartitionPoint less xs k) : lowerBound less xs = .ok k := by
  apply lowerBoundFrom_run hk
  · exact Nat.zero_le k
  · rw [Nat.zero_add]
    exact hk.le_length
  · exact Nat.le_of_eq (Nat.zero_add _)

/-- Elements that are less are not equal, so the first equal element stands at the point, or there
is none. -/
lemma findIdx_eq_of_isPartitionPoint (hk : IsPartitionPoint less xs k)
    (hne : ∀ x, less x = true → equal x = false)
    (hat : ∀ x, xs[k]? = some x → equal x = true) : xs.findIdx equal = k := by
  have hbefore : ∀ i x, xs[i]? = some x → i < k → equal x = false := fun i x hx hi =>
    hne x ((hk.less_iff i x hx).mpr hi)
  rcases Nat.lt_or_eq_of_le hk.le_length with hlt | rfl
  · rw [List.findIdx_eq hlt]
    refine ⟨hat _ (List.getElem?_eq_getElem hlt), fun j hj => ?_⟩
    exact hbefore j _ (List.getElem?_eq_getElem _) hj
  · rw [List.findIdx_eq_length]
    intro x hx
    obtain ⟨i, hi⟩ := List.mem_iff_getElem?.mp hx
    exact hbefore i x hi (List.getElem?_eq_some_iff.mp hi).1

end Core
