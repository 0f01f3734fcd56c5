import CppArchitecture.Core.Counting
import CppArchitecture.Reporting.Packets
import CppArchitecture.Reporting.RemoteReporter

/-!
# The queue of a reporter

However the threads take their steps, the spans come out of the queue in the order they went in,
none of them lost and none twice, and there are never more of them than the queue has room for. The
count of the spans is off by those steps that are under way outside of the mutex, and by no others.
-/

namespace Reporting

open Core

namespace RemoteReporter

variable {ι κ Span τ : Type} {S : Sender Span τ} {fixedQueueSize : ℤ}
  {s t : RemoteReporter ι κ Span τ} {a : Action ι κ Span} {i : ι} {k : κ} {span : Span}

/-- The clients between their acquisition of the mutex and its release. -/
def Critical (s : RemoteReporter ι κ Span τ) : Client ι κ → Prop
  | .reporter i => (s.reporter i).Critical
  | .sweeper => s.sweeper.Critical
  | .closer k => (s.closer k).Critical

/-! ### Moving one thread -/

/-- Handing a span to the sender changes the sender and the metrics. -/
lemma sendSpan_eq (S : Sender Span τ) (s : RemoteReporter ι κ Span τ) (span : Span) :
    ∃ metrics, s.sendSpan S span =
      { s with sender := after (S.append span) s.sender, metrics := metrics } := by
  rw [sendSpan, after]
  cases (S.append span).run s.sender with
  | ok flushed d =>
    dsimp only
    split_ifs
    · exact ⟨_, rfl⟩
    · exact ⟨s.metrics, rfl⟩
  | error ex d => exact ⟨_, rfl⟩

lemma flush_eq (S : Sender Span τ) (s : RemoteReporter ι κ Span τ) :
    ∃ metrics, s.flush S = { s with sender := after S.flush s.sender, metrics := metrics } := by
  rw [flush, after]
  cases S.flush.run s.sender with
  | ok flushed d =>
    dsimp only
    split_ifs
    · exact ⟨_, rfl⟩
    · exact ⟨s.metrics, rfl⟩
  | error ex d => exact ⟨_, rfl⟩

/-- A move that stays inside the section, or outside of it. -/
lemma guards_of_stay {c : Client ι κ} (h : s.mutex.Guards s.Critical)
    (hmutex : t.mutex = s.mutex) (hc : t.Critical c ↔ s.Critical c)
    (hother : ∀ d, d ≠ c → (t.Critical d ↔ s.Critical d)) : t.mutex.Guards t.Critical := by
  rw [hmutex]
  refine h.congr fun d => ?_
  by_cases hd : d = c
  · rw [hd]
    exact hc
  · exact hother d hd

/-- The queue has no more spans than it may, and one less where a thread is about to push. -/
structure Bounded (fixedQueueSize : ℤ) (s : RemoteReporter ι κ Span τ) : Prop where
  length_le : (s.queue.length : ℤ) ≤ max fixedQueueSize 0
  room : ∀ i span, s.reporter i = .checked span true → (s.queue.length : ℤ) < fixedQueueSize

/-- Moves that do not add to the queue, and leave no thread about to push but those that were. -/
lemma Bounded.mono (h : Bounded fixedQueueSize s) (hlength : t.queue.length ≤ s.queue.length)
    (hroom : ∀ i span, t.reporter i = .checked span true →
      s.reporter i = .checked span true ∨ (s.queue.length : ℤ) < fixedQueueSize) :
    Bounded fixedQueueSize t where
  length_le := (Int.ofNat_le.mpr hlength).trans h.length_le
  room i span hpc := by
    have hlt : (s.queue.length : ℤ) < fixedQueueSize := by
      rcases hroom i span hpc with hpc | hlt
      · exact h.room i span hpc
      · exact hlt
    exact (Int.ofNat_le.mpr hlength).trans_lt hlt

/-- A sweeper that moves leaves the other threads where they are. -/
lemma critical_of_sweeper (hreporter : t.reporter = s.reporter) (hcloser : t.closer = s.closer)
    (c : Client ι κ) (hc : c ≠ .sweeper) : t.Critical c ↔ s.Critical c := by
  match c with
  | .reporter j => simp only [Critical, hreporter]
  | .sweeper => exact absurd rfl hc
  | .closer k => simp only [Critical, hcloser]

lemma guards_start (sender : τ) :
    (Mutex.mk none).Guards ({ sender := sender } : RemoteReporter ι κ Span τ).Critical := by
  intro c
  refine iff_of_false ?_ (by simp)
  cases c <;> exact id

section

variable [DecidableEq ι]

lemma setReporter_self {pc : ReportPc Span} : (s.setReporter i pc).reporter i = pc :=
  Function.update_self _ _ _

lemma setReporter_of_ne {pc : ReportPc Span} {j : ι} (hj : j ≠ i) :
    (s.setReporter i pc).reporter j = s.reporter j :=
  Function.update_of_ne hj _ _

/-- A thread that moves is not about to push, and the others are where they were. -/
lemma room_of_setReporter {pc : ReportPc Span} (hpc : ∀ span, pc ≠ .checked span true) (j : ι)
    (span : Span) (hj : (s.setReporter i pc).reporter j = .checked span true) :
    s.reporter j = .checked span true ∨ (s.queue.length : ℤ) < fixedQueueSize := by
  by_cases hji : j = i
  · subst hji
    rw [setReporter_self] at hj
    exact absurd hj (hpc span)
  · rw [setReporter_of_ne hji] at hj
    exact .inl hj

/-- The others are where they were. -/
lemma critical_of_setReporter {pc : ReportPc Span} (hreporter : t.reporter =
      (s.setReporter i pc).reporter) (hsweeper : t.sweeper = s.sweeper)
    (hcloser : t.closer = s.closer) (c : Client ι κ) (hc : c ≠ .reporter i) :
    t.Critical c ↔ s.Critical c := by
  match c with
  | .reporter j =>
    have hji : j ≠ i := by
      rintro rfl
      exact hc rfl
    simp only [Critical, hreporter, setReporter_of_ne hji]
  | .sweeper => simp only [Critical, hsweeper]
  | .closer k => simp only [Critical, hcloser]

/-- A sum over the threads changes by what the thread that moves changes. -/
lemma sum_setReporter [Fintype ι] (f : ReportPc Span → ℤ) (pc : ReportPc Span) :
    ∑ j, f ((s.setReporter i pc).reporter j) =
      ∑ j, f (s.reporter j) - f (s.reporter i) + f pc := by
  have hmoved := sum_add_of_ne (g := fun j => f ((s.setReporter i pc).reporter j))
    (f := fun j => f (s.reporter j)) (i := i) fun j hj => by rw [setReporter_of_ne hj]
  simp only [setReporter_self] at hmoved
  omega

end

section

variable [DecidableEq κ]

lemma setCloser_self {pc : ClosePc} : (s.setCloser k pc).closer k = pc :=
  Function.update_self _ _ _

lemma setCloser_of_ne {pc : ClosePc} {j : κ} (hj : j ≠ k) :
    (s.setCloser k pc).closer j = s.closer j :=
  Function.update_of_ne hj _ _

/-- A thread that closes the reporter leaves the others where they are. -/
lemma critical_of_setCloser {pc : ClosePc} (hreporter : t.reporter = s.reporter)
    (hsweeper : t.sweeper = s.sweeper) (hcloser : t.closer = (s.setCloser k pc).closer)
    (c : Client ι κ) (hc : c ≠ .closer k) : t.Critical c ↔ s.Critical c := by
  match c with
  | .reporter j => simp only [Critical, hreporter]
  | .sweeper => simp only [Critical, hsweeper]
  | .closer j =>
    have hjk : j ≠ k := by
      rintro rfl
      exact hc rfl
    simp only [Critical, hcloser, setCloser_of_ne hjk]

end

variable [DecidableEq ι] [DecidableEq κ]

/-! ### The mutex -/

/-- The mutex guards what is under it. -/
lemma Moves.guards (hmove : Moves S fixedQueueSize s a t) (h : s.mutex.Guards s.Critical) :
    t.mutex.Guards t.Critical := by
  cases hmove with
  | call i span hpc =>
    refine guards_of_stay (c := .reporter i) h rfl ?_ (critical_of_setReporter rfl rfl rfl)
    simp only [Critical, setReporter_self, hpc, ReportPc.Critical]
  | enter i span mutex hpc hlock =>
    refine h.lock hlock ?_ (critical_of_setReporter rfl rfl rfl)
    simp only [Critical, setReporter_self, ReportPc.Critical]
  | check i span hpc =>
    refine guards_of_stay (c := .reporter i) h rfl ?_ (critical_of_setReporter rfl rfl rfl)
    simp only [Critical, setReporter_self, hpc, ReportPc.Critical]
  | push i span hpc =>
    refine h.unlock (i := .reporter i) ?_ ?_ (critical_of_setReporter rfl rfl rfl)
    · simp only [Critical, hpc, ReportPc.Critical]
    · simp only [Critical, setReporter_self, ReportPc.Critical, not_false_iff]
  | drop i span hpc =>
    refine h.unlock (i := .reporter i) ?_ ?_ (critical_of_setReporter rfl rfl rfl)
    · simp only [Critical, hpc, ReportPc.Critical]
    · simp only [Critical, setReporter_self, ReportPc.Critical, not_false_iff]
  | count i hpc =>
    refine guards_of_stay (c := .reporter i) h rfl ?_ (critical_of_setReporter rfl rfl rfl)
    simp only [Critical, setReporter_self, hpc, ReportPc.Critical]
  | wake mutex hpc hlock => exact h.lock hlock trivial (critical_of_sweeper rfl rfl)
  | exit hpc hrunning hqueue =>
    refine h.unlock (i := .sweeper) ?_ id (critical_of_sweeper rfl rfl)
    simp only [Critical, hpc, SweepPc.Critical]
  | pop span queue hpc hqueue =>
    refine guards_of_stay (c := .sweeper) h rfl ?_ (critical_of_sweeper rfl rfl)
    simp only [Critical, hpc, SweepPc.Critical]
  | expire hpc hrunning hqueue =>
    refine guards_of_stay (c := .sweeper) h rfl ?_ (critical_of_sweeper rfl rfl)
    simp only [Critical, hpc, SweepPc.Critical]
  | rest hpc hrunning hqueue =>
    refine h.unlock (i := .sweeper) ?_ id (critical_of_sweeper rfl rfl)
    simp only [Critical, hpc, SweepPc.Critical]
  | uncount span hpc =>
    refine guards_of_stay (c := .sweeper) h rfl ?_ (critical_of_sweeper rfl rfl)
    simp only [Critical, hpc, SweepPc.Critical]
  | send span hpc =>
    obtain ⟨metrics, heq⟩ := sendSpan_eq S s span
    rw [heq]
    refine h.unlock (i := .sweeper) ?_ id (critical_of_sweeper rfl rfl)
    simp only [Critical, hpc, SweepPc.Critical]
  | flush hpc =>
    obtain ⟨metrics, heq⟩ := flush_eq S s
    rw [heq]
    refine h.unlock (i := .sweeper) ?_ id (critical_of_sweeper rfl rfl)
    simp only [Critical, hpc, SweepPc.Critical]
  | startClose k hpc =>
    refine guards_of_stay (c := .closer k) h rfl ?_ (critical_of_setCloser rfl rfl rfl)
    simp only [Critical, setCloser_self, hpc, ClosePc.Critical]
  | enterClose k mutex hpc hlock =>
    refine h.lock hlock ?_ (critical_of_setCloser rfl rfl rfl)
    simp only [Critical, setCloser_self, ClosePc.Critical]
  | stop k hpc hrunning =>
    refine h.unlock (i := .closer k) ?_ ?_ (critical_of_setCloser rfl rfl rfl)
    · simp only [Critical, hpc, ClosePc.Critical]
    · simp only [Critical, setCloser_self, ClosePc.Critical, not_false_iff]
  | leave k hpc hrunning =>
    refine h.unlock (i := .closer k) ?_ ?_ (critical_of_setCloser rfl rfl rfl)
    · simp only [Critical, hpc, ClosePc.Critical]
    · simp only [Critical, setCloser_self, ClosePc.Critical, not_false_iff]
  | join k hpc hsweeper =>
    refine guards_of_stay (c := .closer k) h rfl ?_ (critical_of_setCloser rfl rfl rfl)
    simp only [Critical, setCloser_self, hpc, ClosePc.Critical]
  | lastFlush k hpc =>
    obtain ⟨metrics, heq⟩ := flush_eq S s
    rw [heq]
    refine guards_of_stay (c := .closer k) h rfl ?_ (critical_of_setCloser rfl rfl rfl)
    simp only [Critical, setCloser_self, hpc, ClosePc.Critical]

/-! ### First in, first out -/

/-- What has been accepted has been handed over, is being handed over, or is in the queue. -/
def Fifo (s : RemoteReporter ι κ Span τ) : Prop :=
  s.accepted = s.handed ++ s.sweeper.inFlight ++ s.queue

lemma Moves.fifo (hmove : Moves S fixedQueueSize s a t) (h : s.Fifo) : t.Fifo := by
  cases hmove with
  | call | enter | check | drop | count | startClose | enterClose | stop | leave | join => exact h
  | push i span hpc =>
    -- the span is the last one accepted, and the last one in the queue
    rw [Fifo] at h ⊢
    rw [h, List.append_assoc]
    rfl
  | pop span queue hpc hqueue =>
    -- the first span leaves the queue, and the sweeper has it
    rw [Fifo, hpc, hqueue] at h
    rw [Fifo, h]
    simp [SweepPc.inFlight]
  | send span hpc =>
    obtain ⟨metrics, heq⟩ := sendSpan_eq S s span
    rw [heq]
    rw [Fifo, hpc] at h
    rw [Fifo, h]
    simp [SweepPc.inFlight]
  | flush hpc =>
    obtain ⟨metrics, heq⟩ := flush_eq S s
    rw [heq]
    rw [Fifo, hpc] at h
    exact h
  | lastFlush k hpc =>
    obtain ⟨metrics, heq⟩ := flush_eq S s
    rw [heq]
    exact h
  | wake _ hpc | exit hpc | expire hpc | rest hpc | uncount _ hpc =>
    rw [Fifo, hpc] at h
    exact h

/-! ### The bound -/

lemma Moves.bounded (hmove : Moves S fixedQueueSize s a t) (hguards : s.mutex.Guards s.Critical)
    (h : Bounded fixedQueueSize s) : Bounded fixedQueueSize t := by
  cases hmove with
  | call i span hpc => exact h.mono le_rfl (room_of_setReporter (by simp))
  | enter i span mutex hpc hlock => exact h.mono le_rfl (room_of_setReporter (by simp))
  | check i span hpc =>
    refine h.mono le_rfl fun j other hj => ?_
    by_cases hji : j = i
    · -- the thread that has looked has seen whether there is room
      subst hji
      rw [setReporter_self] at hj
      cases hlt : decide ((s.queue.length : ℤ) < fixedQueueSize) with
      | true => exact .inr (of_decide_eq_true hlt)
      | false =>
        rw [hlt] at hj
        cases hj
    · rw [setReporter_of_ne hji] at hj
      exact .inl hj
  | push i span hpc =>
    -- the mutex has been held since the thread looked
    have hlt := h.room i span hpc
    refine ⟨?_, fun j other hj => ?_⟩
    · rw [List.length_append, List.length_singleton]
      push_cast
      omega
    · -- no other thread is in the section
      exfalso
      by_cases hji : j = i
      · subst hji
        rw [show _ = ReportPc.pushed from setReporter_self] at hj
        cases hj
      · have hj' : s.reporter j = .checked other true := (setReporter_of_ne hji).symm.trans hj
        have hcritical : ∀ l sp, s.reporter l = .checked sp true → s.Critical (.reporter l) := by
          intro l sp hl
          simp only [Critical, hl, ReportPc.Critical]
        have heq := hguards.exclusive (hcritical j other hj') (hcritical i span hpc)
        cases heq
        exact hji rfl
  | drop i span hpc => exact h.mono le_rfl (room_of_setReporter (by simp))
  | count i hpc => exact h.mono le_rfl (room_of_setReporter (by simp))
  | pop span queue hpc hqueue =>
    refine h.mono ?_ fun j other hj => .inl hj
    rw [hqueue]
    exact Nat.le_succ _
  | send span hpc =>
    obtain ⟨metrics, heq⟩ := sendSpan_eq S s span
    rw [heq]
    exact h.mono le_rfl fun j other hj => .inl hj
  | flush hpc =>
    obtain ⟨metrics, heq⟩ := flush_eq S s
    rw [heq]
    exact h.mono le_rfl fun j other hj => .inl hj
  | lastFlush k hpc =>
    obtain ⟨metrics, heq⟩ := flush_eq S s
    rw [heq]
    exact h.mono le_rfl fun j other hj => .inl hj
  | wake | exit | expire | rest | uncount | startClose | enterClose | stop | leave | join =>
    exact h.mono le_rfl fun j other hj => .inl hj

/-! ### The count -/

variable [Fintype ι]

/-- The count is the number of the spans in the queue, but for the steps outside of the mutex that
are under way. -/
def Counted (s : RemoteReporter ι κ Span τ) : Prop :=
  s.queueLength + ∑ i, (s.reporter i).uncounted = s.queue.length + s.sweeper.counted

omit [DecidableEq κ] in
/-- A thread that moves and changes nothing that is counted. -/
lemma Counted.of_uncounted {pc : ReportPc Span} (h : s.Counted)
    (hreporter : t.reporter = (s.setReporter i pc).reporter)
    (hqueueLength : t.queueLength = s.queueLength) (hqueue : t.queue.length + t.sweeper.counted =
      (s.queue.length + s.sweeper.counted : ℤ)) (hpc : (s.reporter i).uncounted = pc.uncounted) :
    t.Counted := by
  rw [Counted] at h ⊢
  rw [hreporter, hqueueLength, hqueue, sum_setReporter, hpc, sub_add_cancel]
  exact h

lemma Moves.counted (hmove : Moves S fixedQueueSize s a t) (h : s.Counted) : t.Counted := by
  cases hmove with
  | call i span hpc => exact h.of_uncounted rfl rfl rfl (by rw [hpc]; rfl)
  | enter i span _ hpc => exact h.of_uncounted rfl rfl rfl (by rw [hpc]; rfl)
  | check i span hpc => exact h.of_uncounted rfl rfl rfl (by rw [hpc]; rfl)
  | drop i span hpc => exact h.of_uncounted rfl rfl rfl (by rw [hpc]; rfl)
  | push i span hpc =>
    -- one span more in the queue, and one thread more that has not counted
    have hsum := sum_setReporter ReportPc.uncounted .pushed (s := s) (i := i)
    have hbefore : (s.reporter i).uncounted = 0 := by
      rw [hpc]
      rfl
    have hafter : (ReportPc.pushed : ReportPc Span).uncounted = 1 := rfl
    rw [Counted] at h ⊢
    change s.queueLength + ∑ j, ((s.setReporter i .pushed).reporter j).uncounted =
      ((s.queue ++ [span]).length : ℤ) + s.sweeper.counted
    rw [hsum, hbefore, hafter, List.length_append, List.length_singleton]
    push_cast
    omega
  | count i hpc =>
    -- one more is counted, and there is one thread less that has to
    have hsum := sum_setReporter ReportPc.uncounted .idle (s := s) (i := i)
    have hbefore : (s.reporter i).uncounted = 1 := by
      rw [hpc]
      rfl
    have hafter : (ReportPc.idle : ReportPc Span).uncounted = 0 := rfl
    rw [Counted] at h ⊢
    change s.queueLength + 1 + ∑ j, ((s.setReporter i .idle).reporter j).uncounted =
      (s.queue.length : ℤ) + s.sweeper.counted
    rw [hsum, hbefore, hafter]
    omega
  | pop span queue hpc hqueue =>
    -- the span that the sweeper takes out is still counted
    rw [Counted, hpc, hqueue, List.length_cons] at h
    rw [Counted]
    simp only [SweepPc.counted] at h ⊢
    push_cast at h
    omega
  | uncount span hpc =>
    rw [Counted, hpc] at h
    rw [Counted]
    simp only [SweepPc.counted] at h ⊢
    omega
  | send span hpc =>
    obtain ⟨metrics, heq⟩ := sendSpan_eq S s span
    rw [heq]
    rw [Counted, hpc] at h
    exact h
  | flush hpc =>
    obtain ⟨metrics, heq⟩ := flush_eq S s
    rw [heq]
    rw [Counted, hpc] at h
    exact h
  | lastFlush k hpc =>
    obtain ⟨metrics, heq⟩ := flush_eq S s
    rw [heq]
    exact h
  | wake _ hpc | exit hpc | expire hpc | rest hpc =>
    rw [Counted, hpc] at h
    exact h
  | startClose | enterClose | stop | leave | join => exact h

/-! ### All runs -/

/-- What holds of the queue between any two steps. -/
structure QueueInv (fixedQueueSize : ℤ) (s : RemoteReporter ι κ Span τ) : Prop where
  guards : s.mutex.Guards s.Critical
  fifo : s.Fifo
  bounded : Bounded fixedQueueSize s
  counted : s.Counted

omit [DecidableEq ι] [DecidableEq κ] in
lemma QueueInv.start (fixedQueueSize : ℤ) (sender : τ) :
    QueueInv fixedQueueSize ({ sender := sender } : RemoteReporter ι κ Span τ) where
  guards := guards_start sender
  fifo := rfl
  bounded := ⟨le_max_right _ _, fun i span h => by cases h⟩
  counted := by simp [Counted, ReportPc.uncounted, SweepPc.counted]

/-- In every run, whatever its threads do and whatever the sender does: the spans handed to the
sender are those accepted into the queue, in their order, but for one that is being handed over and
those still in the queue; the queue has never more spans than it may; and the count of its spans is
off by the threads that are about to count their span, and by the one the sweeper is about to
uncount. -/
theorem queue_inv (sender : τ) (actions : List (Action ι κ Span))
    (hrun : (machine S fixedQueueSize).run { sender := sender } actions = some s) :
    s.accepted = s.handed ++ s.sweeper.inFlight ++ s.queue ∧
      (s.queue.length : ℤ) ≤ max fixedQueueSize 0 ∧
      s.queueLength = s.queue.length + s.sweeper.counted - ∑ i, (s.reporter i).uncounted := by
  have h : QueueInv fixedQueueSize s := by
    refine Machine.run_invariant (fun s a t h hstep => ?_) (.start fixedQueueSize sender) hrun
    have hmove := moves_of_step hstep
    exact ⟨hmove.guards h.guards, hmove.fifo h.fifo, hmove.bounded h.guards h.bounded,
      hmove.counted h.counted⟩
  refine ⟨h.fifo, h.bounded.length_le, ?_⟩
  have hcount := h.counted
  rw [Counted] at hcount
  omega

/-- A span is in the queue, and its thread is about to count it. -/
theorem queue_inv_nat : ∃ s : RemoteReporter Unit Unit ℕ _,
    (machine (ThriftSender.sender UDPTransporter.natLink) 2).run { sender := { transporter := [] } }
        [.call () 7, .report (), .report (), .report ()] = some s ∧
      s.accepted = s.handed ++ s.sweeper.inFlight ++ s.queue ∧ (s.queue.length : ℤ) ≤ max 2 0 ∧
      s.queueLength = s.queue.length + s.sweeper.counted - ∑ i, (s.reporter i).uncounted :=
  .imp (fun _ hs => ⟨hs, queue_inv _ _ hs⟩) (Option.isSome_iff_exists.mp rfl)

end RemoteReporter

end Reporting
