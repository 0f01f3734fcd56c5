import CppArchitecture.Core.Machine
import CppArchitecture.Core.Mutex
import CppArchitecture.Core.Vec
import Mathlib.Logic.Function.Basic

/-!
# Pooled coroutines

`do_routine_work` starts one `fill_number` task for each work item on a thread pool and waits for
all of them; each task appends its number to a shared vector under a mutex. The threads take the
steps of the tasks in any order. An append is two steps, so that another one could come between
them if the mutex let it.
-/

namespace Coroutines

open Core

/-- Where a `fill_number` task stands. -/
inductive Pc where
  | start
  /-- `co_await mutex.scoped_lock_async()` has not returned. -/
  | waiting
  | holding
  /-- `ints.emplace_back(i)` has read where the vector ends. -/
  | atEnd (position : ℕ)
  | written
  /-- The scoped lock is destroyed. -/
  | released
  | done
  deriving DecidableEq, Repr

/-- Between the acquisition of the mutex and its release. -/
def Pc.Critical : Pc → Prop
  | .holding | .atEnd _ | .written => True
  | .start | .waiting | .released | .done => False

/-- The number of the task has been written. -/
def Pc.Wrote : Pc → Prop
  | .written | .released | .done => True
  | .start | .waiting | .holding | .atEnd _ => False

/-- The tasks of `do_routine_work`, one for each of `n` work items, the objects they share, and
what `do_routine_work` has returned. -/
structure State (n : ℕ) where
  pc : Fin n → Pc
  mutex : Mutex (Fin n) := {}
  ints : Vec ℕ
  returned : Option (List ℕ) := none

variable {n : ℕ}

/-- `ints.reserve(WORK_ITEMS)`, and the tasks not yet started. -/
def initial (n : ℕ) : State n where
  pc _ := .start
  ints := Vec.empty.reserve n

namespace State

def setPc (s : State n) (i : Fin n) (pc : Pc) : State n :=
  { s with pc := Function.update s.pc i pc }

/-- The next step of a task, if it can take one. -/
def fillNumber (s : State n) (i : Fin n) : Option (State n) :=
  match s.pc i with
  | .start => some (s.setPc i .waiting)
  | .waiting => (s.mutex.lock i).map fun mutex => { s.setPc i .holding with mutex := mutex }
  | .holding => some (s.setPc i (.atEnd s.ints.size))
  | .atEnd position => some { s.setPc i .written with ints := s.ints.emplaceAt position i }
  | .written => some { s.setPc i .released with mutex := s.mutex.unlock }
  | .released => some (s.setPc i .done)
  | .done => none

/-- `when_all_ready` completes when every task is done, and the vector is returned. -/
def whenAllReady (s : State n) : Option (State n) :=
  if (∀ i, s.pc i = .done) ∧ s.returned = none then
    some { s with returned := some s.ints.elements }
  else none

end State

/-- A step of one of the tasks, or the return of `do_routine_work`. -/
inductive Action (n : ℕ) where
  | task (i : Fin n)
  | complete

def machine (n : ℕ) : Machine (State n) (Action n) where
  step s
    | .task i => s.fillNumber i
    | .complete => s.whenAllReady

/-! ### What a step does -/

variable {s t : State n} {i : Fin n}

/-- The steps of a task, in their order. -/
lemma fillNumber_cases (h : s.fillNumber i = some t) :
    (s.pc i = .start ∧ t = s.setPc i .waiting) ∨
    (s.pc i = .waiting ∧ ∃ mutex, s.mutex.lock i = some mutex ∧
      t = { s.setPc i .holding with mutex := mutex }) ∨
    (s.pc i = .holding ∧ t = s.setPc i (.atEnd s.ints.size)) ∨
    (∃ position, s.pc i = .atEnd position ∧
      t = { s.setPc i .written with ints := s.ints.emplaceAt position i }) ∨
    (s.pc i = .written ∧ t = { s.setPc i .released with mutex := s.mutex.unlock }) ∨
    (s.pc i = .released ∧ t = s.setPc i .done) := by
  cases hpc : s.pc i with
  | start => simp_all [State.fillNumber]
  | waiting =>
    simp only [State.fillNumber, hpc, Option.map_eq_some_iff] at h
    obtain ⟨mutex, hlock, rfl⟩ := h
    exact .inr (.inl ⟨rfl, mutex, hlock, rfl⟩)
  | holding => simp_all [State.fillNumber]
  | atEnd position => simp_all [State.fillNumber]
  | written => simp_all [State.fillNumber]
  | released => simp_all [State.fillNumber]
  | done => simp [State.fillNumber, hpc] at h

lemma whenAllReady_eq_some_iff : s.whenAllReady = some t ↔
    (∀ i, s.pc i = .done) ∧ s.returned = none ∧
      t = { s with returned := some s.ints.elements } := by
  rw [State.whenAllReady]
  split_ifs with h
  · simp [h, eq_comm]
  · simp only [false_iff]
    rintro ⟨hdone, hnone, _⟩
    exact h ⟨hdone, hnone⟩

end Coroutines
