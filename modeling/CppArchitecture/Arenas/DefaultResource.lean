import CppArchitecture.Arenas.Basic

/-!
# The default resource

A function that makes one of its own resources the default leaves the program with a default that
has died. `ensuring_no_unexpected_allocations` sets the default back; the two others that change it
do not. So the default is always alive exactly if these two are never called.
-/

namespace Arenas

open Core

/-- The resources that have been read from the default resource were alive by then. -/
def CapturedAlive (m : Memory) : Prop := ∀ c ∈ m.captured, c.2 = true

/-- The default resource is alive, and so was every resource that has been read from it. -/
def DefaultAlive (m : Memory) : Prop :=
  m.isAlive m.defaultResource = true ∧ CapturedAlive m

/-- The functions return from every call of the sequence, and the default resource is alive after
each, as were the resources captured on the way. -/
def AlwaysAlive (calls : List Call) : Prop :=
  (∃ m, machine.run {} calls = some m) ∧ machine.Always (fun _ m => DefaultAlive m) {} calls

variable {m t : Memory} {r : Resource} {l : Lifetimes} {c : Call} {calls : List Call}

@[simp] lemma capturedAlive_capture :
    CapturedAlive m.capture ↔ CapturedAlive m ∧ m.isAlive m.defaultResource = true := by
  rw [CapturedAlive, Memory.capture, List.forall_mem_append, List.forall_mem_singleton]
  rfl

@[simp] lemma capturedAlive_setDefault : CapturedAlive (m.setDefault r) ↔ CapturedAlive m :=
  Iff.rfl

@[simp] lemma capturedAlive_setLifetimes : CapturedAlive (m.setLifetimes l) ↔ CapturedAlive m :=
  Iff.rfl

/-! ### What the functions do -/

lemma usingMemoryArenas_run (m : Memory) : ∃ l : Lifetimes, l.alive = m.lifetimes.alive ∧
    usingMemoryArenas.run m = .ok ⟨⟩
      (((m.capture.setLifetimes m.lifetimes.construct).setDefault
        (.declared m.lifetimes.next)).capture.capture.setLifetimes l) :=
  ⟨_, Lifetimes.alive_destroy_next rfl, rfl⟩

lemma usingPoolResourcesAndWritingYourOwn_run (m : Memory) :
    ∃ l : Lifetimes, l.alive = m.lifetimes.alive ∧
      usingPoolResourcesAndWritingYourOwn.run m = .ok ⟨⟩ (m.capture.setLifetimes l) :=
  ⟨_, Lifetimes.alive_destroy_next (Lifetimes.alive_destroy_next
    (Lifetimes.alive_destroy_next rfl)), rfl⟩

lemma ensuringNoUnexpectedAllocations_run (m : Memory) :
    ∃ l : Lifetimes, l.alive = m.lifetimes.alive ∧
      ensuringNoUnexpectedAllocations.run m = .ok ⟨⟩
        ((((m.setDefault .nullMemory).setLifetimes m.lifetimes.construct).capture.capture.setDefault
          .newDelete).setLifetimes l) :=
  ⟨_, Lifetimes.alive_destroy_next rfl, rfl⟩

lemma winkingOut_run (m : Memory) : ∃ l : Lifetimes, l.alive = m.lifetimes.alive ∧
    winkingOut.run m = .ok ⟨⟩
      (((m.capture.setLifetimes m.lifetimes.construct.construct).setDefault
        (.declared m.lifetimes.construct.next)).capture.capture.setLifetimes l) :=
  ⟨_, Lifetimes.alive_destroy_next (Lifetimes.alive_destroy_next rfl), rfl⟩

/-! ### One call -/

/-- The call is of a function that leaves no resource of its own as the default. -/
def KeepsDefault (c : Call) : Prop := c ≠ .usingMemoryArenas ∧ c ≠ .winkingOut

/-- A function that points the default to its own resource reads it while it is alive, but then
leaves it dead. -/
lemma not_defaultAlive_of_declared {n : ℕ} (hl : n ∉ l.alive) :
    ¬ DefaultAlive ((m.setDefault (.declared n)).capture.capture.setLifetimes l) := by
  rintro ⟨halive, _⟩
  exact hl (of_decide_eq_true halive)

/-- Every call returns. If the default resource was alive before it, it is so after it exactly if
the function keeps it. -/
lemma call_run (m : Memory) (c : Call) :
    ∃ t, (call c).run m = .ok ⟨⟩ t ∧ (DefaultAlive m → (DefaultAlive t ↔ KeepsDefault c)) := by
  cases c with
  | usingMemoryArenas =>
    obtain ⟨l, hl, hrun⟩ := usingMemoryArenas_run m
    have hdead : m.lifetimes.next ∉ l.alive := by
      rw [hl]
      exact Lifetimes.next_notMem
    exact ⟨_, hrun, fun _ => iff_of_false (not_defaultAlive_of_declared hdead) fun h => h.1 rfl⟩
  | usingPoolResourcesAndWritingYourOwn =>
    obtain ⟨l, hl, hrun⟩ := usingPoolResourcesAndWritingYourOwn_run m
    refine ⟨_, hrun, fun ⟨hdefault, hcaptured⟩ => iff_of_true ⟨?_, ?_⟩ ⟨nofun, nofun⟩⟩
    · exact (Memory.isAlive_congr hl).trans hdefault
    · simp [hcaptured, hdefault]
  | ensuringNoUnexpectedAllocations =>
    obtain ⟨l, _, hrun⟩ := ensuringNoUnexpectedAllocations_run m
    refine ⟨_, hrun, fun ⟨_, hcaptured⟩ => iff_of_true ⟨rfl, ?_⟩ ⟨nofun, nofun⟩⟩
    simp [hcaptured, Memory.isAlive]
  | winkingOut =>
    obtain ⟨l, hl, hrun⟩ := winkingOut_run m
    have hdead : m.lifetimes.construct.next ∉ l.alive := by
      rw [hl]
      exact fun h => Lifetimes.next_notMem (Finset.mem_insert_of_mem h)
    exact ⟨_, hrun, fun _ => iff_of_false (not_defaultAlive_of_declared hdead) fun h => h.2 rfl⟩

/-- No call ends with an exception. -/
lemma exists_step (m : Memory) (c : Call) : ∃ t, machine.step m c = some t := by
  obtain ⟨t, hrun, _⟩ := call_run m c
  exact ⟨t, Machine.ofMethod_step.mpr ⟨_, hrun⟩⟩

/-- A step keeps the default resource alive exactly if its function does. -/
lemma step_iff (hm : DefaultAlive m) (hstep : machine.step m c = some t) :
    DefaultAlive t ↔ KeepsDefault c := by
  obtain ⟨_, hrun⟩ := Machine.ofMethod_step.mp hstep
  obtain ⟨t', hrun', hiff⟩ := call_run m c
  rw [hrun] at hrun'
  cases hrun'
  exact hiff hm

/-! ### Sequences of calls -/

/-- At the start of the program nothing has been captured. -/
lemma defaultAlive_start : DefaultAlive {} := ⟨rfl, fun _ h => by cases h⟩

/-- The default resource is always alive exactly if neither of the functions that leave their own
resource as the default is called. -/
theorem alwaysAlive_iff (calls : List Call) :
    AlwaysAlive calls ↔ ∀ c ∈ calls, c ≠ .usingMemoryArenas ∧ c ≠ .winkingOut := by
  obtain ⟨u, hrun⟩ := Machine.exists_run exists_step {} calls
  rw [AlwaysAlive, and_iff_right ⟨u, hrun⟩]
  refine Iff.trans ?_ (Machine.meets_iff_forall_mem hrun)
  refine Machine.always_iff_meets (Q := fun _ _ => True) defaultAlive_start trivial ?_ ?_ hrun
  · intro bs m c t _ _ hm hstep
    exact step_iff hm hstep
  · intro bs m c t _ _ _ _ _
    trivial

/-- The first call of `main` leaves its pool as the default, and the pool dies. -/
theorem default_dies_with_pool : ¬ ∀ calls : List Call, AlwaysAlive calls := by
  intro hall
  obtain ⟨l, hl, hrun⟩ := usingMemoryArenas_run {}
  have hstep : machine.step {} .usingMemoryArenas = some _ := Machine.ofMethod_step.mpr ⟨_, hrun⟩
  have hone : machine.run {} [.usingMemoryArenas] = some _ :=
    Option.bind_eq_some_iff.mpr ⟨_, hstep, rfl⟩
  have hfirst := (hall [.usingMemoryArenas]).2 _ _ List.prefix_rfl hone
  exact ((step_iff defaultAlive_start hstep).mp hfirst).1 rfl

end Arenas
