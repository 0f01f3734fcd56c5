import Mathlib.Tactic.Common

/-!
# Mutexes

A mutex is held by at most one of its clients. It guards a section of their code if they are in
the section exactly while they hold it; then no two of them are there at once.
-/

namespace Core

/-- A mutex and the client that holds it, if there is one. -/
structure Mutex (ι : Type*) where
  holder : Option ι := none

namespace Mutex

variable {ι : Type*}

/-- The mutex can be taken when nobody holds it. -/
def lock (m : Mutex ι) (i : ι) : Option (Mutex ι) :=
  match m.holder with
  | none => some ⟨some i⟩
  | some _ => none

def unlock (_ : Mutex ι) : Mutex ι := ⟨none⟩

/-- The clients in the critical section are those that hold the mutex. -/
def Guards (m : Mutex ι) (critical : ι → Prop) : Prop := ∀ i, critical i ↔ m.holder = some i

variable {m n : Mutex ι} {critical critical' : ι → Prop} {i j : ι}

lemma lock_eq_some_iff : m.lock i = some n ↔ m.holder = none ∧ n = ⟨some i⟩ := by
  simp only [lock]
  cases m.holder <;> simp [eq_comm]

namespace Guards

/-- Mutual exclusion. -/
lemma exclusive (hg : m.Guards critical) (hi : critical i) (hj : critical j) : i = j :=
  Option.some.inj (((hg i).mp hi).symm.trans ((hg j).mp hj))

/-- The client that takes the mutex enters the section, and no other one. -/
lemma lock (hg : m.Guards critical) (hlock : m.lock i = some n) (hi : critical' i)
    (hother : ∀ j, j ≠ i → (critical' j ↔ critical j)) : n.Guards critical' := by
  obtain ⟨hfree, rfl⟩ := lock_eq_some_iff.mp hlock
  intro j
  by_cases hj : j = i
  · subst hj
    exact iff_of_true hi rfl
  · rw [hother j hj, hg j, hfree]
    exact iff_of_false (by simp) fun heq => hj (Option.some.inj heq).symm

/-- The holder releases the mutex and leaves the section. -/
lemma unlock (hg : m.Guards critical) (hin : critical i) (hi : ¬ critical' i)
    (hother : ∀ j, j ≠ i → (critical' j ↔ critical j)) : m.unlock.Guards critical' := by
  intro j
  refine iff_of_false (fun hj => ?_) (by simp [Mutex.unlock])
  by_cases hji : j = i
  · subst hji
    exact hi hj
  · exact hji (hg.exclusive ((hother j hji).mp hj) hin)

/-- A step that neither enters nor leaves the section. -/
lemma congr (hg : m.Guards critical) (hsame : ∀ j, critical' j ↔ critical j) :
    m.Guards critical' := by
  intro j
  exact (hsame j).trans (hg j)

end Guards

end Mutex

end Core
