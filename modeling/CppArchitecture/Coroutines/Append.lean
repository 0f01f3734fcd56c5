import CppArchitecture.Coroutines.Basic
import Mathlib.Data.List.Perm.Subperm
import Mathlib.Data.List.Range
import Mathlib.Algebra.Order.BigOperators.Group.Finset
import Mathlib.Algebra.BigOperators.Fin

/-!
# Nothing lost, nothing duplicated

The mutex guards the append: the end of the vector that a task has read is still its end when the
task writes. So the vector holds the numbers of the tasks that have written, and in the end all
of them. The tasks cannot block one another for good, and every run that is not cut short returns.
-/

namespace Coroutines

open Core

variable {n : ℕ} {s t : State n} {i j : Fin n} {p : Pc}

/-- What holds between any two steps. -/
structure Inv (s : State n) : Prop where
  guards : s.mutex.Guards fun i => (s.pc i).Critical
  atEnd : ∀ i position, s.pc i = .atEnd position → position = s.ints.size
  mem : ∀ k, k ∈ s.ints.elements ↔ ∃ i : Fin n, (s.pc i).Wrote ∧ (i : ℕ) = k
  nodup : s.ints.elements.Nodup
  reserved : s.ints.capacity = n
  returned : ∀ xs, s.returned = some xs → (∀ i, s.pc i = .done) ∧ xs = s.ints.elements

lemma length_le_of_nodup {xs : List ℕ} (hnodup : xs.Nodup) (hlt : ∀ k ∈ xs, k < n) :
    xs.length ≤ n := by
  have hsub : xs ⊆ List.range n := by
    intro k hk
    exact List.mem_range.mpr (hlt k hk)
  have hlen := (hnodup.subperm hsub).length_le
  rwa [List.length_range] at hlen

/-! ### Moving one task -/

lemma setPc_pc_iff (Q : Pc → Prop) (hi : Q p ↔ Q (s.pc i)) (j : Fin n) :
    Q ((s.setPc i p).pc j) ↔ Q (s.pc j) := by
  by_cases hj : j = i
  · subst hj
    simpa [State.setPc] using hi
  · simp [State.setPc, Function.update_of_ne hj]

lemma setPc_pc_self : (s.setPc i p).pc i = p := Function.update_self _ _ _

lemma setPc_pc_of_ne (hj : j ≠ i) : (s.setPc i p).pc j = s.pc j := Function.update_of_ne hj _ _

namespace Inv

lemma size_le (h : Inv s) : s.ints.size ≤ n := by
  apply length_le_of_nodup h.nodup
  intro k hk
  obtain ⟨i, _, rfl⟩ := (h.mem k).mp hk
  exact i.isLt

/-- Nothing is returned while a task is under way. -/
lemma not_returned (h : Inv s) (hpc : s.pc i ≠ .done) (xs : List ℕ) : s.returned ≠ some xs :=
  fun hxs => hpc ((h.returned xs hxs).1 i)

/-- A step that does not write. -/
lemma quiet {mutex : Mutex (Fin n)} (h : Inv s) (hpc : s.pc i ≠ .done)
    (hguards : mutex.Guards fun j => ((s.setPc i p).pc j).Critical)
    (hwrote : p.Wrote ↔ (s.pc i).Wrote)
    (hend : ∀ position, p = .atEnd position → position = s.ints.size) :
    Inv { s.setPc i p with mutex := mutex } where
  guards := hguards
  atEnd j position hj := by
    by_cases hji : j = i
    · subst hji
      exact hend position (setPc_pc_self.symm.trans hj)
    · exact h.atEnd j position ((setPc_pc_of_ne hji).symm.trans hj)
  mem k := by
    refine (h.mem k).trans (exists_congr fun j => and_congr_left' ?_)
    exact (setPc_pc_iff Pc.Wrote hwrote j).symm
  nodup := h.nodup
  reserved := h.reserved
  returned xs hxs := absurd hxs (h.not_returned hpc xs)

/-- A step that neither writes nor takes or releases the mutex. -/
lemma silent (h : Inv s) (hpc : s.pc i ≠ .done) (hcritical : p.Critical ↔ (s.pc i).Critical)
    (hwrote : p.Wrote ↔ (s.pc i).Wrote)
    (hend : ∀ position, p = .atEnd position → position = s.ints.size) : Inv (s.setPc i p) :=
  h.quiet hpc (h.guards.congr (setPc_pc_iff Pc.Critical hcritical)) hwrote hend

/-- The step that writes: the position that was read is still the end. -/
lemma write {position : ℕ} (h : Inv s) (hpc : s.pc i = .atEnd position) :
    Inv { s.setPc i .written with ints := s.ints.emplaceAt position i } := by
  have hin : (s.pc i).Critical := hpc ▸ trivial
  obtain rfl := h.atEnd i position hpc
  have hmem : ∀ k, k ∈ s.ints.elements ++ [(i : ℕ)] ↔
      ∃ j : Fin n, ((s.setPc i .written).pc j).Wrote ∧ (j : ℕ) = k := by
    intro k
    rw [List.mem_append, h.mem, List.mem_singleton]
    constructor
    · rintro (⟨j, hj, rfl⟩ | rfl)
      · have hji : j ≠ i := by
          rintro rfl
          rw [hpc] at hj
          exact hj
        exact ⟨j, by rwa [setPc_pc_of_ne hji], rfl⟩
      · exact ⟨i, by rw [setPc_pc_self]; trivial, rfl⟩
    · rintro ⟨j, hj, rfl⟩
      by_cases hji : j = i
      · exact .inr (congrArg Fin.val hji)
      · exact .inl ⟨j, by rwa [setPc_pc_of_ne hji] at hj, rfl⟩
  have hnodup : (s.ints.elements ++ [(i : ℕ)]).Nodup := by
    refine List.nodup_append.mpr ⟨h.nodup, List.nodup_singleton _, ?_⟩
    rintro k hk l hl rfl
    obtain ⟨j, hj, hjk⟩ := (h.mem k).mp hk
    rw [List.mem_singleton] at hl
    obtain rfl : j = i := Fin.ext (hjk.trans hl)
    rw [hpc] at hj
    exact hj
  have hlen : s.ints.size + 1 ≤ n := by
    have hle := length_le_of_nodup hnodup fun k hk => by
      obtain ⟨j, _, rfl⟩ := (hmem k).mp hk
      exact j.isLt
    rwa [List.length_append] at hle
  rw [Vec.emplaceAt_size]
  refine ⟨?_, ?_, hmem, hnodup, ?_, ?_⟩
  · exact h.guards.congr (setPc_pc_iff Pc.Critical (iff_of_true trivial hin))
  · -- nobody else stands at the end
    intro j position hj
    have hji : j ≠ i := by
      rintro rfl
      rw [setPc_pc_self] at hj
      cases hj
    have hj' : s.pc j = .atEnd position := (setPc_pc_of_ne hji).symm.trans hj
    exact absurd (h.guards.exclusive (i := j) (hj' ▸ trivial) hin) hji
  · refine (max_eq_left ?_).trans h.reserved
    rw [h.reserved]
    exact hlen
  · intro xs hxs
    exact absurd hxs (h.not_returned (i := i) (by simp [hpc]) xs)

/-- Every step of a task keeps the invariant. -/
lemma fillNumber (h : Inv s) (hstep : s.fillNumber i = some t) : Inv t := by
  rcases fillNumber_cases hstep with ⟨hpc, rfl⟩ | ⟨hpc, mutex, hlock, rfl⟩ | ⟨hpc, rfl⟩ |
    ⟨position, hpc, rfl⟩ | ⟨hpc, rfl⟩ | ⟨hpc, rfl⟩
  · exact h.silent (by simp [hpc]) (hpc ▸ Iff.rfl) (hpc ▸ Iff.rfl) (by simp)
  · -- the mutex is acquired
    refine h.quiet (by simp [hpc]) (h.guards.lock hlock ?_ ?_) (hpc ▸ Iff.rfl) (by simp)
    · rw [setPc_pc_self]
      trivial
    · intro j hj
      rw [setPc_pc_of_ne hj]
  · exact h.silent (by simp [hpc]) (hpc ▸ Iff.rfl) (hpc ▸ Iff.rfl) (by simp)
  · exact h.write hpc
  · -- the mutex is released
    refine h.quiet (by simp [hpc]) (h.guards.unlock (i := i) ?_ ?_ ?_) (hpc ▸ Iff.rfl) (by simp)
    · rw [hpc]
      trivial
    · rw [setPc_pc_self]
      exact id
    · intro j hj
      rw [setPc_pc_of_ne hj]
  · exact h.silent (by simp [hpc]) (hpc ▸ Iff.rfl) (hpc ▸ Iff.rfl) (by simp)

lemma whenAllReady (h : Inv s) (hstep : s.whenAllReady = some t) : Inv t := by
  obtain ⟨hdone, _, rfl⟩ := whenAllReady_eq_some_iff.mp hstep
  refine ⟨h.guards, h.atEnd, h.mem, h.nodup, h.reserved, ?_⟩
  rintro xs ⟨rfl⟩
  exact ⟨hdone, rfl⟩

lemma initial : Inv (Coroutines.initial n) where
  guards i := iff_of_false id (by simp [Coroutines.initial])
  atEnd i position hi := by cases hi
  mem k := by simp [Coroutines.initial, Vec.reserve, Pc.Wrote]
  nodup := List.nodup_nil
  reserved := max_eq_right (Nat.zero_le n)
  returned xs hxs := by cases hxs

lemma step {a : Action n} (h : Inv s) (hstep : (machine n).step s a = some t) : Inv t := by
  match a with
  | .task i => exact h.fillNumber hstep
  | .complete => exact h.whenAllReady hstep

lemma run {actions : List (Action n)}
    (hrun : (machine n).run (Coroutines.initial n) actions = some s) : Inv s :=
  Machine.run_invariant (fun _ _ _ h hstep => h.step hstep) Inv.initial hrun

/-- What is returned is every number once. -/
lemma perm_range (h : Inv s) {xs : List ℕ} (hxs : s.returned = some xs) :
    xs.Perm (List.range n) := by
  obtain ⟨hdone, rfl⟩ := h.returned xs hxs
  apply (List.perm_ext_iff_of_nodup h.nodup List.nodup_range).mpr
  intro k
  rw [h.mem, List.mem_range]
  constructor
  · rintro ⟨i, _, rfl⟩
    exact i.isLt
  · intro hk
    exact ⟨⟨k, hk⟩, by rw [hdone]; trivial, rfl⟩

/-- A task that is not done can go on, unless it waits for the mutex. -/
lemma fillNumber_isSome (hdone : s.pc i ≠ .done)
    (hwaiting : s.pc i = .waiting → s.mutex.holder = none) : (s.fillNumber i).isSome := by
  rw [State.fillNumber]
  cases hpc : s.pc i with
  | waiting => simp [Mutex.lock, hwaiting hpc]
  | done => exact absurd hpc hdone
  | start | holding | atEnd | written | released => rfl

/-- The tasks do not block one another for good: if nothing can go on, it has returned. -/
lemma returned_of_stuck (h : Inv s) (hstuck : ∀ a, (machine n).step s a = none) :
    s.returned.isSome := by
  by_contra hnone
  rw [Option.not_isSome_iff_eq_none] at hnone
  -- some task is not done, or the vector could be returned
  obtain ⟨i, hi⟩ : ∃ i, s.pc i ≠ .done := by
    by_contra! hdone
    have hstep := whenAllReady_eq_some_iff.mpr ⟨hdone, hnone, rfl⟩
    exact absurd (hstep.symm.trans (hstuck .complete)) (by simp)
  have hcannot : ∀ j, ¬ (s.fillNumber j).isSome := by
    intro j
    rw [Option.not_isSome_iff_eq_none]
    exact hstuck (.task j)
  refine hcannot i (fillNumber_isSome hi fun _ => ?_)
  cases hholder : s.mutex.holder with
  | none => rfl
  | some j =>
    -- the holder is in its critical section, where it does not wait
    have hj := (h.guards j).mpr hholder
    refine absurd (fillNumber_isSome (fun hpc => ?_) fun hpc => ?_) (hcannot j)
    · exact (hpc ▸ hj : Pc.done.Critical)
    · exact (hpc ▸ hj : Pc.waiting.Critical).elim

end Inv

/-! ### The end of a run -/

/-- The steps a task has before it. -/
def Pc.left : Pc → ℕ
  | .start => 6
  | .waiting => 5
  | .holding => 4
  | .atEnd _ => 3
  | .written => 2
  | .released => 1
  | .done => 0

/-- The steps before `do_routine_work` has returned. -/
def State.left (s : State n) : ℕ :=
  (∑ i, (s.pc i).left) + if s.returned.isSome then 0 else 1

lemma sum_left_setPc (hp : p.left < (s.pc i).left) :
    ∑ j, ((s.setPc i p).pc j).left < ∑ j, (s.pc j).left := by
  apply Finset.sum_lt_sum
  · intro j _
    by_cases hj : j = i
    · subst hj
      rw [setPc_pc_self]
      exact hp.le
    · rw [setPc_pc_of_ne hj]
  · exact ⟨i, Finset.mem_univ i, by rwa [setPc_pc_self]⟩

lemma left_fillNumber (hstep : s.fillNumber i = some t) : t.left < s.left := by
  have hlt : ∀ q, q.left < (s.pc i).left →
      (∑ j, ((s.setPc i q).pc j).left) + (if s.returned.isSome then 0 else 1) < s.left := by
    intro q hq
    exact Nat.add_lt_add_right (sum_left_setPc hq) _
  rcases fillNumber_cases hstep with ⟨hpc, rfl⟩ | ⟨hpc, mutex, hlock, rfl⟩ | ⟨hpc, rfl⟩ |
    ⟨position, hpc, rfl⟩ | ⟨hpc, rfl⟩ | ⟨hpc, rfl⟩ <;>
  exact hlt _ (by rw [hpc]; exact Nat.lt_succ_self _)

/-- Every step brings the return closer. -/
lemma left_step {a : Action n} (hstep : (machine n).step s a = some t) : t.left < s.left := by
  match a with
  | .task i => exact left_fillNumber hstep
  | .complete =>
    obtain ⟨_, hnone, rfl⟩ := whenAllReady_eq_some_iff.mp hstep
    simp [State.left, hnone]

lemma length_run_le {actions : List (Action n)}
    (hrun : (machine n).run (initial n) actions = some s) : actions.length ≤ 6 * n + 1 := by
  have hlen : actions.length + s.left ≤ 6 * n + 1 := by
    refine Machine.run_induction (P := fun actions s => actions.length + s.left ≤ 6 * n + 1)
      ?_ ?_ hrun
    · simp [State.left, initial, Pc.left, Nat.mul_comm]
    · intro as s a t _ ih hstep
      have hlt := left_step hstep
      rw [List.length_append, List.length_singleton]
      omega
  exact (Nat.le_add_right _ _).trans hlen

/-- Over any interleaving of the tasks: one of them at a time between the acquisition of the
mutex and its release, the vector within the space reserved for it, the numbers of the tasks that
have written in it once each, and all of them in what is returned. And a run that cannot go on,
which comes after at most `6 * n + 1` steps, has returned. -/
theorem numbers_once {actions : List (Action n)}
    (hrun : (machine n).run (initial n) actions = some s) :
    (∀ i j, (s.pc i).Critical → (s.pc j).Critical → i = j) ∧
    (s.ints.size ≤ n ∧ s.ints.capacity = n) ∧
    ((∀ k, k ∈ s.ints.elements ↔ ∃ i : Fin n, (s.pc i).Wrote ∧ (i : ℕ) = k) ∧
      s.ints.elements.Nodup) ∧
    (∀ xs, s.returned = some xs → (∀ i, s.pc i = .done) ∧ xs.Perm (List.range n)) ∧
    actions.length ≤ 6 * n + 1 ∧
    ((∀ a, (machine n).step s a = none) → s.returned.isSome) := by
  have h := Inv.run hrun
  exact ⟨fun i j => h.guards.exclusive, ⟨h.size_le, h.reserved⟩, ⟨h.mem, h.nodup⟩,
    fun xs hxs => ⟨(h.returned xs hxs).1, h.perm_range hxs⟩, length_run_le hrun,
    h.returned_of_stuck⟩

/-- Two tasks, the second one first at the mutex. -/
def twoTasks : List (Action 2) :=
  [.task 0, .task 1, .task 1, .task 1, .task 1, .task 1, .task 0, .task 0, .task 1, .task 0,
    .task 0, .task 0, .complete]

/-- What the two tasks leave behind. -/
theorem numbers_once_two : ∃ s xs, (machine 2).run (initial 2) twoTasks = some s ∧
    s.returned = some xs ∧ xs.Perm [0, 1] := by
  have hrun : (machine 2).run (initial 2) twoTasks = some _ := rfl
  obtain ⟨-, -, -, hreturned, -⟩ := numbers_once hrun
  exact ⟨_, [1, 0], hrun, rfl, (hreturned [1, 0] rfl).2⟩

end Coroutines
