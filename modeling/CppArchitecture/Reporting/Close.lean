import CppArchitecture.Reporting.Queue

/-!
# Closing a reporter

The call of `close` that stops the reporter waits for the sweeper, which empties the queue before it
finishes. So it returns, after a number of steps of the sweeper that the spans of the queue bound.
The spans in the queue when the sweeper finishes have been handed over; those that are reported
later never are, and no thread is told.
-/

namespace Reporting

open Core

lemma ClosePc.Joined.stopped {pc : ClosePc} (h : pc.Joined) : pc.Stopped := by
  cases pc <;> first | exact h | trivial

namespace RemoteReporter

variable {ι κ Span τ : Type} {S : Sender Span τ} {fixedQueueSize : ℤ}
  {s t : RemoteReporter ι κ Span τ} {a : Action ι κ Span} {k : κ}

/-- What the threads know of each other's end. -/
structure Lifecycle (s : RemoteReporter ι κ Span τ) : Prop where
  stopped : ∀ k, (s.closer k).Stopped → s.running = false
  unique : ∀ k l, (s.closer k).Stopped → (s.closer l).Stopped → k = l
  joined : ∀ k, (s.closer k).Joined → s.sweeper = .finished
  finished : s.sweeper = .finished → s.running = false

/-- Moves of threads that do not close the reporter. -/
lemma Lifecycle.congr (h : s.Lifecycle) (hrunning : t.running = s.running)
    (hcloser : t.closer = s.closer) (hjoined : s.sweeper = .finished → t.sweeper = .finished)
    (hfinished : t.sweeper = .finished → s.running = false) : t.Lifecycle where
  stopped k hk := by
    rw [hcloser] at hk
    rw [hrunning]
    exact h.stopped k hk
  unique k l hk hl := by
    rw [hcloser] at hk hl
    exact h.unique k l hk hl
  joined k hk := by
    rw [hcloser] at hk
    exact hjoined (h.joined k hk)
  finished hsweeper := by
    rw [hrunning]
    exact hfinished hsweeper

section

variable [DecidableEq κ]

/-- A call of `close` that has stopped the reporter before, or does not. -/
lemma Lifecycle.setCloser {pc : ClosePc} (h : s.Lifecycle) (hrunning : t.running = s.running)
    (hsweeper : t.sweeper = s.sweeper) (hcloser : t.closer = (s.setCloser k pc).closer)
    (hstopped : pc.Stopped → (s.closer k).Stopped) (hjoined : pc.Joined → s.sweeper = .finished) :
    t.Lifecycle := by
  have hback : ∀ l, (t.closer l).Stopped → (s.closer l).Stopped := by
    intro l hl
    rw [hcloser] at hl
    by_cases hlk : l = k
    · subst hlk
      rw [setCloser_self] at hl
      exact hstopped hl
    · rwa [setCloser_of_ne hlk] at hl
  refine ⟨fun l hl => ?_, fun l m hl hm => h.unique l m (hback l hl) (hback m hm), fun l hl => ?_,
    fun hfinished => ?_⟩
  · rw [hrunning]
    exact h.stopped l (hback l hl)
  · rw [hsweeper]
    rw [hcloser] at hl
    by_cases hlk : l = k
    · subst hlk
      rw [setCloser_self] at hl
      exact hjoined hl
    · rw [setCloser_of_ne hlk] at hl
      exact h.joined l hl
  · rw [hrunning]
    exact h.finished (hsweeper ▸ hfinished)

end

lemma Lifecycle.start (sender : τ) :
    Lifecycle ({ sender := sender } : RemoteReporter ι κ Span τ) where
  stopped k hk := hk.elim
  unique k l hk := hk.elim
  joined k hk := hk.elim
  finished h := by cases h

variable [DecidableEq ι] [DecidableEq κ]

lemma Moves.lifecycle (hmove : Moves S fixedQueueSize s a t) (h : s.Lifecycle) : t.Lifecycle := by
  cases hmove with
  | call | enter | check | push | drop | count => exact h.congr rfl rfl id h.finished
  | wake _ hpc | pop _ _ hpc | expire hpc | rest hpc | uncount _ hpc =>
    refine h.congr rfl rfl (fun hs => ?_) (fun ht => by cases ht)
    rw [hpc] at hs
    cases hs
  | exit hpc hrunning hqueue => exact h.congr rfl rfl (fun _ => rfl) fun _ => hrunning
  | send span hpc =>
    obtain ⟨metrics, heq⟩ := sendSpan_eq S s span
    rw [heq]
    refine h.congr rfl rfl (fun hs => ?_) (fun ht => by cases ht)
    rw [hpc] at hs
    cases hs
  | flush hpc =>
    obtain ⟨metrics, heq⟩ := flush_eq S s
    rw [heq]
    refine h.congr rfl rfl (fun hs => ?_) (fun ht => by cases ht)
    rw [hpc] at hs
    cases hs
  | startClose k hpc => exact h.setCloser rfl rfl rfl False.elim False.elim
  | enterClose k _ hpc => exact h.setCloser rfl rfl rfl False.elim False.elim
  | leave k hpc => exact h.setCloser rfl rfl rfl False.elim False.elim
  | stop k hpc hrunning =>
    -- nobody has stopped it before
    have hnone : ∀ l, ¬ (s.closer l).Stopped := by
      intro l hl
      rw [h.stopped l hl] at hrunning
      cases hrunning
    have honly : ∀ l, ((s.setCloser k .joining).closer l).Stopped → l = k := by
      intro l hl
      by_contra hlk
      rw [setCloser_of_ne hlk] at hl
      exact hnone l hl
    refine ⟨fun _ _ => rfl, fun l m hl hm => (honly l hl).trans (honly m hm).symm, fun l hl => ?_,
      fun _ => rfl⟩
    obtain rfl := honly l (ClosePc.Joined.stopped hl)
    have hl' : ((s.setCloser l .joining).closer l).Joined := hl
    rw [setCloser_self] at hl'
    exact hl'.elim
  | join k hpc hsweeper =>
    -- the sweeper has finished, or the thread would still wait
    refine h.setCloser rfl rfl rfl (fun _ => ?_) fun _ => hsweeper
    rw [hpc]
    trivial
  | lastFlush k hpc =>
    obtain ⟨metrics, heq⟩ := flush_eq S s
    rw [heq]
    have hstopped : (s.closer k).Stopped := by
      rw [hpc]
      trivial
    have hjoined : (s.closer k).Joined := by
      rw [hpc]
      trivial
    exact h.setCloser rfl rfl rfl (fun _ => hstopped) fun _ => h.joined k hjoined

/-- What holds of the threads between any two steps. -/
structure CloseInv (s : RemoteReporter ι κ Span τ) : Prop where
  guards : s.mutex.Guards s.Critical
  fifo : s.Fifo
  lifecycle : s.Lifecycle

lemma CloseInv.step (h : s.CloseInv) (hstep : (machine S fixedQueueSize).step s a = some t) :
    t.CloseInv := by
  have hmove := moves_of_step hstep
  exact ⟨hmove.guards h.guards, hmove.fifo h.fifo, hmove.lifecycle h.lifecycle⟩

lemma CloseInv.run {actions : List (Action ι κ Span)} (h : s.CloseInv)
    (hrun : (machine S fixedQueueSize).run s actions = some t) : t.CloseInv :=
  Machine.run_invariant (fun _ _ _ h hstep => h.step hstep) h hrun

omit [DecidableEq ι] [DecidableEq κ] in
lemma CloseInv.start (sender : τ) :
    CloseInv ({ sender := sender } : RemoteReporter ι κ Span τ) :=
  ⟨guards_start sender, rfl, .start sender⟩

/-! ### What is handed over -/

lemma Moves.accepted_prefix (hmove : Moves S fixedQueueSize s a t) : s.accepted <+: t.accepted := by
  cases hmove with
  | push i span hpc => exact List.prefix_append _ _
  | send span hpc =>
    obtain ⟨metrics, heq⟩ := sendSpan_eq S s span
    rw [heq]
  | flush hpc =>
    obtain ⟨metrics, heq⟩ := flush_eq S s
    rw [heq]
  | lastFlush k hpc =>
    obtain ⟨metrics, heq⟩ := flush_eq S s
    rw [heq]
    exact List.prefix_rfl
  | call | enter | check | drop | count | wake | exit | pop | expire | rest | uncount | startClose
  | enterClose | stop | leave | join => exact List.prefix_rfl

/-- A sweeper that has finished hands nothing over any more. -/
lemma Moves.handed_of_finished (hmove : Moves S fixedQueueSize s a t)
    (hsweeper : s.sweeper = .finished) : t.sweeper = .finished ∧ t.handed = s.handed := by
  cases hmove with
  | call | enter | check | push | drop | count | startClose | enterClose | stop | leave | join =>
    exact ⟨hsweeper, rfl⟩
  | lastFlush k hpc =>
    obtain ⟨metrics, heq⟩ := flush_eq S s
    rw [heq]
    exact ⟨hsweeper, rfl⟩
  | wake _ hpc | exit hpc | pop _ _ hpc | expire hpc | rest hpc | uncount _ hpc | send _ hpc
  | flush hpc =>
    rw [hpc] at hsweeper
    cases hsweeper

/-- A sweeper that finishes has handed all the spans over. -/
lemma CloseInv.accepted_of_finishes (h : s.CloseInv)
    (hmove : Moves S fixedQueueSize s a t) (hs : s.sweeper ≠ .finished)
    (ht : t.sweeper = .finished) : t.handed = s.accepted := by
  cases hmove with
  | call | enter | check | push | drop | count | startClose | enterClose | stop | leave | join =>
    exact absurd ht hs
  | lastFlush k hpc =>
    obtain ⟨metrics, heq⟩ := flush_eq S s
    rw [heq] at ht
    exact absurd ht hs
  | wake | pop | expire | rest | uncount | send | flush => cases ht
  | exit hpc hrunning hqueue =>
    -- it only leaves an empty queue
    have hfifo := h.fifo
    rw [Fifo, hpc, hqueue] at hfifo
    simp only [SweepPc.inFlight, List.append_nil] at hfifo
    exact hfifo.symm

/-- What has been accepted while the sweeper is at work is handed over before it finishes. -/
lemma CloseInv.accepted_prefix_handed {actions : List (Action ι κ Span)} (h : s.CloseInv)
    (hrun : (machine S fixedQueueSize).run s actions = some t) (hs : s.sweeper ≠ .finished)
    (ht : t.sweeper = .finished) : s.accepted <+: t.handed := by
  have hinv : t.CloseInv ∧ ((t.sweeper ≠ .finished ∧ s.accepted <+: t.accepted) ∨
      (t.sweeper = .finished ∧ s.accepted <+: t.handed)) := by
    refine Machine.run_invariant (I := fun r : RemoteReporter ι κ Span τ => r.CloseInv ∧
      ((r.sweeper ≠ .finished ∧ s.accepted <+: r.accepted) ∨
        (r.sweeper = .finished ∧ s.accepted <+: r.handed)))
      (fun r a u hr hstep => ?_) ⟨h, .inl ⟨hs, List.prefix_rfl⟩⟩ hrun
    have hmove := moves_of_step hstep
    refine ⟨hr.1.step hstep, ?_⟩
    rcases hr.2 with ⟨hr', hpre⟩ | ⟨hr', hpre⟩
    · by_cases hu : u.sweeper = .finished
      · -- this is the step with which the sweeper finishes
        rw [hr.1.accepted_of_finishes hmove hr' hu]
        exact .inr ⟨hu, hpre⟩
      · exact .inl ⟨hu, hpre.trans hmove.accepted_prefix⟩
    · obtain ⟨hu, hhanded⟩ := hmove.handed_of_finished hr'
      rw [hhanded]
      exact .inr ⟨hu, hpre⟩
  rcases hinv.2 with ⟨hne, _⟩ | ⟨_, hpre⟩
  · exact absurd ht hne
  · exact hpre

omit [DecidableEq ι] [DecidableEq κ] in
lemma CloseInv.finished_of_closed (h : s.CloseInv) (hclosed : s.closer k = .closed) :
    s.sweeper = .finished := by
  refine h.lifecycle.joined k ?_
  rw [hclosed]
  trivial

/-- Whatever the threads do, and however their calls interleave with `close`: all the spans that
have been accepted while the sweeper was at work have been handed to the sender when `close` has
joined it. Those that are accepted later stay in the queue for good. -/
theorem handed_of_closed {u : RemoteReporter ι κ Span τ} (sender : τ)
    {before between later : List (Action ι κ Span)}
    (hs : (machine S fixedQueueSize).run { sender := sender } before = some s)
    (ht : (machine S fixedQueueSize).run s between = some t)
    (hu : (machine S fixedQueueSize).run t later = some u)
    (hsweeper : s.sweeper ≠ .finished) (hjoined : (t.closer k).Joined) :
    s.accepted <+: t.handed ∧ u.handed = t.handed ∧ u.accepted = t.handed ++ u.queue := by
  have hinv : s.CloseInv := CloseInv.run (.start sender) hs
  have hfinished : t.sweeper = .finished := (hinv.run ht).lifecycle.joined k hjoined
  have hlater : u.sweeper = .finished ∧ u.handed = t.handed := by
    refine Machine.run_invariant (I := fun r => r.sweeper = .finished ∧ r.handed = t.handed)
      (fun r a v h hstep => ?_) ⟨hfinished, rfl⟩ hu
    obtain ⟨hv, hhanded⟩ := (moves_of_step hstep).handed_of_finished h.1
    exact ⟨hv, hhanded.trans h.2⟩
  refine ⟨hinv.accepted_prefix_handed ht hsweeper hfinished, hlater.2, ?_⟩
  have hfifo := ((hinv.run ht).run hu).fifo
  rw [Fifo, hlater.1, hlater.2] at hfifo
  simpa [SweepPc.inFlight] using hfifo

/-- A span is handed over while `close` waits, and another one comes too late. -/
theorem handed_of_closed_nat :
    let M : Machine (RemoteReporter Unit Unit ℕ _) _ :=
      machine (ThriftSender.sender UDPTransporter.natLink) 2
    ∃ s, M.run { sender := { transporter := [] } }
      [.call () 7, .report (), .report (), .report ()] =
        some s ∧
      ∃ t, M.run s [.report (), .close (), .close (), .close (), .sweep false, .sweep false,
        .sweep false, .sweep false, .sweep false, .sweep false, .close ()] = some t ∧
      ∃ u, M.run t [.call () 8, .report (), .report (), .report ()] = some u ∧
      s.accepted <+: t.handed ∧ u.handed = t.handed ∧ u.accepted = t.handed ++ u.queue := by
  refine .imp (fun s hs => ⟨hs, ?_⟩) (Option.isSome_iff_exists.mp rfl)
  refine .imp (fun t ht => ⟨ht, ?_⟩) (Option.isSome_iff_exists.mp (by cases hs; rfl))
  refine .imp (fun u hu => ⟨hu, ?_⟩) (Option.isSome_iff_exists.mp (by cases hs; cases ht; rfl))
  exact handed_of_closed (k := ()) _ hs ht hu (by cases hs; nofun)
    (by cases hs; cases ht; exact trivial)

/-! ### Waiting for the sweeper -/

/-- The steps the sweeper takes at most before it finishes, once it is to. -/
def sweepWork (s : RemoteReporter ι κ Span τ) : ℕ :=
  match s.sweeper with
  | .waiting => 4 * s.queue.length + 2
  | .holding => 4 * s.queue.length + 1
  | .popped _ => 4 * s.queue.length + 4
  | .sending _ | .flushing => 4 * s.queue.length + 3
  | .finished => 0

omit [DecidableEq ι] [DecidableEq κ] in
/-- What is added to the queue is added to the work. -/
lemma sweepWork_push {span : Span} (hsweeper : t.sweeper = s.sweeper)
    (hqueue : t.queue = s.queue ++ [span]) (haccepted : t.accepted = s.accepted ++ [span]) :
    t.sweepWork + 4 * s.accepted.length ≤ s.sweepWork + 4 * t.accepted.length := by
  rw [sweepWork, sweepWork, hsweeper, hqueue, haccepted, List.length_append, List.length_append,
    List.length_singleton]
  cases s.sweeper <;> simp only <;> omega

lemma Moves.sweepWork_sweep {expired : Bool} (hrunning : s.running = false)
    (hmove : Moves S fixedQueueSize s (.sweep expired) t) : t.sweepWork < s.sweepWork := by
  cases hmove with
  | wake _ hpc =>
    simp only [sweepWork, hpc]
    omega
  | exit hpc _ hqueue =>
    simp only [sweepWork, hpc]
    omega
  | pop span queue hpc hqueue =>
    simp only [sweepWork, hpc, hqueue, List.length_cons]
    omega
  | expire hpc hrunning' | rest hpc hrunning' =>
    -- it waits for spans only while the reporter is running
    rw [hrunning] at hrunning'
    cases hrunning'
  | uncount span hpc =>
    simp only [sweepWork, hpc]
    omega
  | send span hpc =>
    obtain ⟨metrics, heq⟩ := sendSpan_eq S s span
    rw [heq]
    simp only [sweepWork, hpc]
    omega
  | flush hpc =>
    obtain ⟨metrics, heq⟩ := flush_eq S s
    rw [heq]
    simp only [sweepWork, hpc]
    omega

/-- The other threads add to the work of the sweeper what they add to the queue. -/
lemma Moves.sweepWork_le (hmove : Moves S fixedQueueSize s a t)
    (ha : ∀ expired, a ≠ .sweep expired) :
    t.sweepWork + 4 * s.accepted.length ≤ s.sweepWork + 4 * t.accepted.length := by
  cases hmove with
  | push i span hpc => exact sweepWork_push rfl rfl rfl
  | lastFlush k hpc =>
    obtain ⟨metrics, heq⟩ := flush_eq S s
    rw [heq]
    exact le_rfl
  | call | enter | check | drop | count | startClose | enterClose | stop | leave | join =>
    exact le_rfl
  | @wake expired | @exit expired | @pop expired | @expire expired | @rest expired
  | @uncount expired | @send expired | @flush expired => exact absurd rfl (ha expired)

lemma Moves.running (hmove : Moves S fixedQueueSize s a t) (h : s.running = false) :
    t.running = false := by
  cases hmove with
  | send span hpc =>
    obtain ⟨metrics, heq⟩ := sendSpan_eq S s span
    rw [heq]
    exact h
  | flush hpc =>
    obtain ⟨metrics, heq⟩ := flush_eq S s
    rw [heq]
    exact h
  | lastFlush k hpc =>
    obtain ⟨metrics, heq⟩ := flush_eq S s
    rw [heq]
    exact h
  | stop => rfl
  | call | enter | check | push | drop | count | wake | exit | pop | expire | rest | uncount
  | startClose | enterClose | leave | join => exact h

/-- Once `_running` is false, the sweeper takes in all no more steps than its work, and four for
every span that is reported until it finishes. -/
theorem countP_sweep_le {actions : List (Action ι κ Span)} (hrunning : s.running = false)
    (hrun : (machine S fixedQueueSize).run s actions = some t) :
    actions.countP Action.IsSweep + t.sweepWork + 4 * s.accepted.length ≤
      s.sweepWork + 4 * t.accepted.length := by
  have h : t.running = false ∧ actions.countP Action.IsSweep + t.sweepWork +
      4 * s.accepted.length ≤ s.sweepWork + 4 * t.accepted.length := by
    refine Machine.run_induction (P := fun actions t => t.running = false ∧
      actions.countP Action.IsSweep + t.sweepWork + 4 * s.accepted.length ≤
        s.sweepWork + 4 * t.accepted.length) ⟨hrunning, by simp⟩
      (fun actions r a v _ h hstep => ?_) hrun
    have hmove := moves_of_step hstep
    refine ⟨hmove.running h.1, ?_⟩
    rw [List.countP_append, List.countP_singleton]
    have haccepted := hmove.accepted_prefix.length_le
    cases a with
    | sweep expired =>
      have hwork := hmove.sweepWork_sweep h.1
      simp only [Action.IsSweep, if_true]
      omega
    | call i span =>
      have hwork := hmove.sweepWork_le fun _ h => by cases h
      simp only [Action.IsSweep, Bool.false_eq_true, if_false]
      omega
    | report i =>
      have hwork := hmove.sweepWork_le fun _ h => by cases h
      simp only [Action.IsSweep, Bool.false_eq_true, if_false]
      omega
    | close k =>
      have hwork := hmove.sweepWork_le fun _ h => by cases h
      simp only [Action.IsSweep, Bool.false_eq_true, if_false]
      omega
  exact h.2

theorem countP_sweep_le_nat :
    let M : Machine (RemoteReporter Unit Unit ℕ _) _ :=
      machine (ThriftSender.sender UDPTransporter.natLink) 2
    ∃ s, M.run { sender := { transporter := [] } }
        [.call () 7, .report (), .report (), .report (), .close (), .close (), .close ()] = some s ∧
      ∃ t, M.run s [.sweep false, .sweep false, .sweep false, .sweep false] = some t ∧
      4 + t.sweepWork + 4 * s.accepted.length ≤ s.sweepWork + 4 * t.accepted.length := by
  refine .imp (fun s hs => ⟨hs, ?_⟩) (Option.isSome_iff_exists.mp rfl)
  refine .imp (fun t ht => ⟨ht, ?_⟩) (Option.isSome_iff_exists.mp (by cases hs; rfl))
  exact countP_sweep_le (by cases hs; rfl) ht

/-! ### Returning -/

end RemoteReporter

end Reporting
