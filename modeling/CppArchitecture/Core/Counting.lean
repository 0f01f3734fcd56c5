import Mathlib.Algebra.BigOperators.Group.Finset.Basic
import Mathlib.Data.Fintype.Basic
import Mathlib.Tactic.Abel

/-!
# Counting while one thing changes

A sum over threads and a count over a list change by what the one that moves changes.
-/

namespace Core

variable {ι M A : Type*}

/-- A sum in which one summand changes. -/
lemma sum_add_of_ne [Fintype ι] [DecidableEq ι] [AddCommMonoid M] {f g : ι → M} {i : ι}
    (h : ∀ j, j ≠ i → g j = f j) : ∑ j, g j + f i = ∑ j, f j + g i := by
  have hrest : ∑ j ∈ Finset.univ.erase i, g j = ∑ j ∈ Finset.univ.erase i, f j :=
    Finset.sum_congr rfl fun j hj => h j (Finset.ne_of_mem_erase hj)
  rw [← Finset.add_sum_erase _ g (Finset.mem_univ i),
    ← Finset.add_sum_erase _ f (Finset.mem_univ i), hrest]
  abel

/-- A count in which one element changes. -/
lemma countP_set_add {p : A → Bool} {l : List A} {i : ℕ} {a b : A} (h : l[i]? = some a) :
    (l.set i b).countP p + (p a).toNat = l.countP p + (p b).toNat := by
  induction l generalizing i with
  | nil => cases h
  | cons c l ih =>
    match i with
    | 0 =>
      obtain rfl : c = a := Option.some.inj h
      simp only [List.set_cons_zero, List.countP_cons, Bool.toNat, Bool.cond_eq_ite]
      abel
    | i + 1 =>
      have hrest := ih (i := i) h
      rw [List.set_cons_succ, List.countP_cons, List.countP_cons, add_right_comm, hrest,
        add_right_comm]

/-- A count does not change where an element is replaced by another one of its kind. -/
lemma countP_set_eq {p : A → Bool} {l : List A} {i : ℕ} {a b : A} (h : l[i]? = some a)
    (hp : p b = p a) : (l.set i b).countP p = l.countP p := by
  have hcount := countP_set_add (p := p) (b := b) h
  rw [hp] at hcount
  exact Nat.add_right_cancel hcount

end Core
