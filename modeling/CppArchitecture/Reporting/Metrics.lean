import CppArchitecture.Reporting.Close
import CppArchitecture.Reporting.Delivery

/-!
# What the metrics tell

The metrics of a reporter account for the spans: one that is reported is accepted into the queue or
counted as dropped, and the spans that have been sent are counted as successes. If no failure is
counted when the reporter has been closed, all the spans that have been handed to the sender have
been sent.
-/

namespace Reporting

open Core

namespace RemoteReporter

variable {ι κ Span τ : Type} {S : Sender Span τ} {fixedQueueSize : ℤ}
  {s t : RemoteReporter ι κ Span τ} {a : Action ι κ Span} {k : κ} {span : Span}
  {D : Delivery S} {d : τ}

/-! ### The sender -/

/-- What the metrics say, if they tell of no failure, of the spans handed to a sender that was `d`
at the start. -/
structure Metered (D : Sending S) (d : τ) (handed : List Span) (sender : τ) (metrics : Metrics) :
    Prop where
  failure : 0 ≤ metrics.failure
  kept : metrics.failure = 0 → D.kept sender = D.kept d ++ handed
  success : metrics.failure = 0 →
    ((D.sent sender).length : ℤ) = (D.sent d).length + metrics.success

lemma Metered.start {D : Sending S} : Metered D d [] d {} where
  failure := le_rfl
  kept _ := (List.append_nil _).symm
  success _ := (add_zero _).symm

lemma Metered.sendSpan {D : Sending S} (h : Metered D d s.handed s.sender s.metrics) :
    Metered D d (s.handed ++ [span]) (s.sendSpan S span).sender (s.sendSpan S span).metrics := by
  have hfailure := h.failure
  rw [RemoteReporter.sendSpan]
  cases hrun : (S.append span).run s.sender with
  | ok n e =>
    obtain ⟨hkept, hpre, hlength⟩ := D.append_ok span s.sender n e hrun
    have hle := hpre.length_le
    have hkept' : s.metrics.failure = 0 → D.kept e = D.kept d ++ (s.handed ++ [span]) := fun h0 => by
      rw [hkept, h.kept h0, List.append_assoc]
    dsimp only
    split_ifs with hn
    · refine ⟨hfailure, hkept', fun h0 => ?_⟩
      rw [hlength, h.success h0, add_assoc]
    · refine ⟨hfailure, hkept', fun h0 => ?_⟩
      rw [← h.success h0]
      dsimp only
      omega
  | error ex e =>
    have hpos := D.append_failed span s.sender ex e hrun
    refine ⟨?_, fun h0 => ?_, fun h0 => ?_⟩ <;> dsimp only at * <;> omega

/-- A flush that is not counted as a failure leaves nothing to send. -/
lemma Metered.flush {D : Sending S} {handed : List Span}
    (h : Metered D d handed s.sender s.metrics) :
    Metered D d handed (s.flush S).sender (s.flush S).metrics ∧
      ((s.flush S).metrics.failure = 0 →
        D.sent (s.flush S).sender = D.kept (s.flush S).sender) := by
  have hfailure := h.failure
  rw [RemoteReporter.flush]
  cases hrun : S.flush.run s.sender with
  | ok n e =>
    obtain ⟨hkept, hsent, hlength⟩ := D.flush_ok s.sender n e hrun
    have hle := (D.sent_prefix s.sender).length_le
    rw [← hsent] at hle
    have hkept' : s.metrics.failure = 0 → D.kept e = D.kept d ++ handed := fun h0 =>
      hkept.trans (h.kept h0)
    dsimp only
    split_ifs with hn
    · refine ⟨⟨hfailure, hkept', fun h0 => ?_⟩, fun _ => hsent.trans hkept.symm⟩
      rw [hlength, h.success h0, add_assoc]
    · refine ⟨⟨hfailure, hkept', fun h0 => ?_⟩, fun _ => hsent.trans hkept.symm⟩
      rw [← h.success h0]
      dsimp only
      omega
  | error ex e =>
    have hpos := D.flush_failed s.sender ex e hrun
    refine ⟨⟨?_, fun h0 => ?_, fun h0 => ?_⟩, fun h0 => ?_⟩ <;> dsimp only at * <;> omega

/-- What a sender whose calls have sent nothing if they throw has sent of the spans handed to it,
and what is counted of it. -/
structure Delivered (D : Delivery S) (d : τ) (handed : List Span) (sender : τ)
    (metrics : Metrics) : Prop where
  kept : ∃ spans, spans.Sublist handed ∧ D.kept sender = D.kept d ++ spans
  success : ((D.sent sender).length : ℤ) = (D.sent d).length + metrics.success

lemma Delivered.start : Delivered D d [] d {} where
  kept := ⟨[], .refl _, (List.append_nil _).symm⟩
  success := (add_zero _).symm

lemma Delivered.sendSpan (h : Delivered D d s.handed s.sender s.metrics) :
    Delivered D d (s.handed ++ [span]) (s.sendSpan S span).sender
      (s.sendSpan S span).metrics := by
  obtain ⟨spans, hsub, hkept⟩ := h.kept
  have hwith : ∀ e, D.kept e = D.kept s.sender ++ [span] → ∃ spans : List Span,
      spans.Sublist (s.handed ++ [span]) ∧ D.kept e = D.kept d ++ spans := fun e he =>
    ⟨spans ++ [span], hsub.append_right _, by rw [he, hkept, List.append_assoc]⟩
  rw [RemoteReporter.sendSpan]
  cases hrun : (S.append span).run s.sender with
  | ok n e =>
    obtain ⟨hkept', hpre, hlength⟩ := D.append_ok span s.sender n e hrun
    have hle := hpre.length_le
    dsimp only
    split_ifs with hn
    · refine ⟨hwith e hkept', ?_⟩
      rw [hlength, h.success, add_assoc]
    · refine ⟨hwith e hkept', ?_⟩
      rw [← h.success]
      dsimp only
      omega
  | error ex e =>
    obtain ⟨hkept', hsent⟩ := D.append_error span s.sender ex e hrun
    refine ⟨?_, by rw [hsent, h.success]⟩
    rcases hkept' with hkept' | hkept'
    · -- the span is lost
      exact ⟨spans, hsub.trans (List.sublist_append_left _ _), by rw [hkept', hkept]⟩
    · -- the span stays in the buffer
      exact hwith e hkept'

lemma Delivered.flush {handed : List Span} (h : Delivered D d handed s.sender s.metrics) :
    Delivered D d handed (s.flush S).sender (s.flush S).metrics := by
  obtain ⟨spans, hsub, hkept⟩ := h.kept
  rw [RemoteReporter.flush]
  cases hrun : S.flush.run s.sender with
  | ok n e =>
    obtain ⟨hkept', hsent, hlength⟩ := D.flush_ok s.sender n e hrun
    have hle := (D.sent_prefix s.sender).length_le
    rw [← hsent] at hle
    dsimp only
    split_ifs with hn
    · refine ⟨⟨spans, hsub, hkept'.trans hkept⟩, ?_⟩
      rw [hlength, h.success, add_assoc]
    · refine ⟨⟨spans, hsub, hkept'.trans hkept⟩, ?_⟩
      rw [← h.success]
      dsimp only
      omega
  | error ex e =>
    obtain ⟨hkept', hsent⟩ := D.flush_error s.sender ex e hrun
    exact ⟨⟨spans, hsub, hkept'.trans hkept⟩, by rw [hsent, h.success]⟩

lemma dropped_sendSpan : (s.sendSpan S span).metrics.dropped = s.metrics.dropped := by
  rw [sendSpan]
  cases (S.append span).run s.sender with
  | ok n e =>
    dsimp only
    split_ifs <;> rfl
  | error ex e => rfl

lemma dropped_flush : (s.flush S).metrics.dropped = s.metrics.dropped := by
  rw [flush]
  cases S.flush.run s.sender with
  | ok n e =>
    dsimp only
    split_ifs <;> rfl
  | error ex e => rfl

/-- A thread that closes the reporter and is not there yet. -/
lemma closed_of_setCloser [DecidableEq κ] {pc : ClosePc} {l : κ} (hpc : pc ≠ .closed)
    (hl : (s.setCloser k pc).closer l = .closed) : s.closer l = .closed := by
  by_cases hlk : l = k
  · subst hlk
    rw [setCloser_self] at hl
    exact absurd hl hpc
  · rwa [setCloser_of_ne hlk] at hl

variable [DecidableEq ι] [DecidableEq κ]

/-- What holds of the sender and the metrics between any two steps. -/
structure SendInv (D : Sending S) (d : τ) (s : RemoteReporter ι κ Span τ) : Prop where
  close : s.CloseInv
  metered : Metered D d s.handed s.sender s.metrics
  flushed : ∀ k, s.closer k = .closed → s.metrics.failure = 0 → D.sent s.sender = D.kept s.sender

lemma SendInv.step {D : Sending S} (h : SendInv D d s)
    (hstep : (machine S fixedQueueSize).step s a = some t) : SendInv D d t := by
  have hclose := h.close.step hstep
  have hclosed : s.sweeper ≠ .finished → ∀ k, s.closer k ≠ .closed := fun hs k hk =>
    hs (h.close.finished_of_closed hk)
  cases moves_of_step hstep with
  | call | enter | check | push | count | wake | exit | pop | expire | rest | uncount =>
    exact ⟨hclose, h.metered, h.flushed⟩
  | drop => exact ⟨hclose, ⟨h.metered.failure, h.metered.kept, h.metered.success⟩, h.flushed⟩
  | send span hpc =>
    -- no call has returned from `close` yet
    refine ⟨hclose, h.metered.sendSpan, fun k hk => absurd ?_ (hclosed (by simp [hpc]) k)⟩
    obtain ⟨metrics, heq⟩ := sendSpan_eq S s span
    rw [heq] at hk
    exact hk
  | flush hpc =>
    obtain ⟨metrics, heq⟩ := flush_eq S s
    have hmetered := h.metered.flush.1
    have hhanded : (s.flush S).handed = s.handed := by rw [heq]
    exact ⟨hclose, hhanded ▸ hmetered, fun k _ hfailure => h.metered.flush.2 hfailure⟩
  | startClose k hpc | enterClose k _ hpc | leave k hpc | stop k hpc | join k hpc =>
    refine ⟨hclose, h.metered, fun l hl => h.flushed l (closed_of_setCloser (by simp) hl)⟩
  | lastFlush k hpc =>
    -- the thread is closed now, and the flush has sent what was kept
    obtain ⟨metrics, heq⟩ := flush_eq S s
    have hmetered := h.metered.flush.1
    have hhanded : (s.flush S).handed = s.handed := by rw [heq]
    exact ⟨hclose, hhanded ▸ hmetered, fun l _ hfailure => h.metered.flush.2 hfailure⟩

lemma SendInv.run {D : Sending S} {actions : List (Action ι κ Span)} (sender : τ)
    (hrun : (machine S fixedQueueSize).run { sender := sender } actions = some s) :
    SendInv D sender s :=
  Machine.run_invariant (fun _ _ _ h hstep => h.step hstep)
    ⟨.start sender, .start, fun _ hk => by cases hk⟩ hrun

lemma Moves.delivered (hmove : Moves S fixedQueueSize s a t)
    (h : Delivered D d s.handed s.sender s.metrics) :
    Delivered D d t.handed t.sender t.metrics := by
  cases hmove with
  | send span hpc => exact h.sendSpan
  | flush hpc =>
    obtain ⟨metrics, heq⟩ := flush_eq S s
    have hhanded : (s.flush S).handed = s.handed := by rw [heq]
    exact hhanded ▸ h.flush
  | lastFlush k hpc =>
    obtain ⟨metrics, heq⟩ := flush_eq S s
    have hhanded : (s.flush S).handed = s.handed := by rw [heq]
    exact hhanded ▸ h.flush
  | drop => exact ⟨h.kept, h.success⟩
  | call | enter | check | push | count | wake | exit | pop | expire | rest | uncount | startClose
  | enterClose | stop | leave | join => exact h

/-- In every run: the spans that have been sent are, in the order they were accepted in, some of the
spans that have been accepted, none of them twice; and the successes that have been counted are as
many as the spans that have been sent. -/
theorem sent_of_run (D : Delivery S) (sender : τ) {actions : List (Action ι κ Span)}
    (hrun : (machine S fixedQueueSize).run { sender := sender } actions = some s) :
    (∃ spans, spans.Sublist s.accepted ∧ D.sent s.sender <+: D.kept sender ++ spans) ∧
      ((D.sent s.sender).length : ℤ) = (D.sent sender).length + s.metrics.success := by
  have h : s.CloseInv ∧ Delivered D sender s.handed s.sender s.metrics :=
    Machine.run_invariant (I := fun s => s.CloseInv ∧ Delivered D sender s.handed s.sender s.metrics)
      (fun _ _ _ h hstep => ⟨h.1.step hstep, (moves_of_step hstep).delivered h.2⟩)
      ⟨.start sender, .start⟩ hrun
  obtain ⟨spans, hsub, hkept⟩ := h.2.kept
  refine ⟨⟨spans, hsub.trans ?_, hkept ▸ D.sent_prefix s.sender⟩, h.2.success⟩
  have hfifo := h.1.fifo
  rw [Fifo, List.append_assoc] at hfifo
  rw [hfifo]
  exact List.sublist_append_left _ _

theorem sent_of_run_nat : ∃ s : RemoteReporter Unit Unit ℕ _,
    (machine (ThriftSender.sender UDPTransporter.natLink) 2).run { sender := { transporter := [] } }
        [.call () 7, .report (), .report (), .report (), .sweep false, .sweep false] = some s ∧
      (∃ spans, spans.Sublist s.accepted ∧ s.sender.transporter.flatMap (·.spans) <+: spans) ∧
      ((s.sender.transporter.flatMap (·.spans)).length : ℤ) = 0 + s.metrics.success :=
  .imp (fun _ hs => ⟨hs, sent_of_run (ThriftSender.delivery UDPTransporter.natSent) _ hs⟩)
    (Option.isSome_iff_exists.mp rfl)

/-! ### The calls -/

section

variable [Fintype ι]

/-- Every call has taken its span, or dropped it, or is under way. -/
def Decided (calls : ℕ) (s : RemoteReporter ι κ Span τ) : Prop :=
  (calls : ℤ) = s.accepted.length + s.metrics.dropped + ∑ i, (s.reporter i).undecided

omit [DecidableEq κ] in
/-- A thread that moves without an end to its call. -/
lemma Decided.of_undecided {calls : ℕ} {i : ι} {pc : ReportPc Span} (h : s.Decided calls)
    (hreporter : t.reporter = (s.setReporter i pc).reporter) (haccepted : t.accepted = s.accepted)
    (hmetrics : t.metrics = s.metrics)
    (hpc : (s.reporter i).undecided = pc.undecided) : t.Decided calls := by
  rw [Decided] at h ⊢
  rw [hreporter, haccepted, hmetrics, sum_setReporter, hpc, sub_add_cancel]
  exact h

omit [DecidableEq ι] [DecidableEq κ] in
/-- Moves of the other threads. -/
lemma Decided.congr {calls : ℕ} (h : s.Decided calls) (hreporter : t.reporter = s.reporter)
    (haccepted : t.accepted = s.accepted) (hmetrics : t.metrics.dropped = s.metrics.dropped) :
    t.Decided calls := by
  rw [Decided, hreporter, haccepted, hmetrics]
  exact h

lemma Moves.decided {calls : ℕ} (hmove : Moves S fixedQueueSize s a t) (h : s.Decided calls) :
    t.Decided (calls + if a.IsCall then 1 else 0) := by
  cases hmove with
  | call i span hpc =>
    -- a call more, and it is undecided
    have hsum := sum_setReporter ReportPc.undecided (.entering span) (s := s) (i := i)
    have hbefore : (s.reporter i).undecided = 0 := by
      rw [hpc]
      rfl
    have hafter : (ReportPc.entering span).undecided = 1 := rfl
    rw [Decided] at h ⊢
    rw [hsum, hbefore, hafter]
    simp only [Action.IsCall, if_true]
    push_cast
    change (calls : ℤ) + 1 = s.accepted.length + s.metrics.dropped + _
    omega
  | push i span hpc =>
    -- the span is accepted, though it is still to be counted
    have hsum := sum_setReporter ReportPc.undecided .pushed (s := s) (i := i)
    have hbefore : (s.reporter i).undecided = 1 := by
      rw [hpc]
      rfl
    have hafter : (ReportPc.pushed : ReportPc Span).undecided = 0 := rfl
    rw [Decided] at h ⊢
    change (calls : ℤ) = ((s.accepted ++ [span]).length : ℤ) + s.metrics.dropped +
      ∑ j, ((s.setReporter i .pushed).reporter j).undecided
    rw [hsum, hbefore, hafter, List.length_append, List.length_singleton]
    push_cast
    omega
  | drop i span hpc =>
    -- the span is counted as dropped in the same step
    have hsum := sum_setReporter ReportPc.undecided .idle (s := s) (i := i)
    have hbefore : (s.reporter i).undecided = 1 := by
      rw [hpc]
      rfl
    have hafter : (ReportPc.idle : ReportPc Span).undecided = 0 := rfl
    rw [Decided] at h ⊢
    change (calls : ℤ) = s.accepted.length + (s.metrics.dropped + 1) +
      ∑ j, ((s.setReporter i .idle).reporter j).undecided
    rw [hsum, hbefore, hafter]
    omega
  | enter i span _ hpc => exact h.of_undecided rfl rfl rfl (by rw [hpc]; rfl)
  | check i span hpc => exact h.of_undecided rfl rfl rfl (by rw [hpc]; rfl)
  | count i hpc => exact h.of_undecided rfl rfl rfl (by rw [hpc]; rfl)
  | send span hpc =>
    obtain ⟨metrics, heq⟩ := sendSpan_eq S s span
    exact h.congr (by rw [heq]) (by rw [heq]) dropped_sendSpan
  | flush hpc =>
    obtain ⟨metrics, heq⟩ := flush_eq S s
    exact h.congr (by rw [heq]) (by rw [heq]) dropped_flush
  | lastFlush k hpc =>
    obtain ⟨metrics, heq⟩ := flush_eq S s
    exact h.congr (by rw [heq]; rfl) (by rw [heq]; rfl) dropped_flush
  | wake | exit | pop | expire | rest | uncount | startClose | enterClose | stop | leave | join =>
    exact h.congr rfl rfl rfl

/-- In every run: the calls of `report` are as many as the spans in the queue or out of it again,
and the spans that have been counted as dropped, and the calls that have not come to either. -/
theorem calls_of_run (sender : τ) {actions : List (Action ι κ Span)}
    (hrun : (machine S fixedQueueSize).run { sender := sender } actions = some s) :
    (actions.countP Action.IsCall : ℤ) =
      s.accepted.length + s.metrics.dropped + ∑ i, (s.reporter i).undecided := by
  refine Machine.run_induction (P := fun actions s => s.Decided (actions.countP Action.IsCall))
    ?_ (fun actions r a u _ h hstep => ?_) hrun
  · simp [Decided, ReportPc.undecided]
  · rw [List.countP_append, List.countP_singleton]
    exact (moves_of_step hstep).decided h

/-- The second span finds the queue full. -/
theorem calls_of_run_nat : ∃ s : RemoteReporter Unit Unit ℕ _,
    (machine (ThriftSender.sender UDPTransporter.natLink) 1).run { sender := { transporter := [] } }
        [.call () 7, .report (), .report (), .report (), .report (), .call () 8, .report (),
          .report (), .report (), .call () 9] = some s ∧
      3 = s.accepted.length + s.metrics.dropped + ∑ i, (s.reporter i).undecided :=
  .imp (fun _ hs => ⟨hs, calls_of_run _ hs⟩) (Option.isSome_iff_exists.mp rfl)

end

end RemoteReporter

namespace ThriftSender

open RemoteReporter

variable {Tag Span σ ι κ : Type} [DecidableEq ι] [DecidableEq κ] {L : Link Tag Span σ}
  {fixedQueueSize : ℤ} {s t : RemoteReporter ι κ Span (ThriftSender Tag Span σ)} {k : κ}

/-- A reporter with a `ThriftSender` that has been closed, and has counted no failure: the batches
on the wire have the spans that were handed over, in the order they were accepted in and each of
them once, among them all those accepted while the sweeper was at work; and their number has been
counted. -/
theorem batches_of_closed (K : SentBatches L.toTransport) (transporter : σ)
    {before between : List (Action ι κ Span)}
    (hs : (machine (sender L) fixedQueueSize).run { sender := { transporter := transporter } }
      before = some s)
    (ht : (machine (sender L) fixedQueueSize).run s between = some t)
    (hsweeper : s.sweeper ≠ .finished) (hclosed : t.closer k = .closed)
    (hfailure : t.metrics.failure = 0) :
    (K.batches t.sender.transporter).flatMap (·.spans) =
        (K.batches transporter).flatMap (·.spans) ++ t.handed ∧
      s.accepted <+: t.handed ∧ t.handed <+: t.accepted ∧
      t.metrics.success = t.handed.length := by
  have hrun : (machine (sender L) fixedQueueSize).run
      { sender := { transporter := transporter } } (before ++ between) = some t :=
    Machine.run_append_eq_some.mpr ⟨s, hs, ht⟩
  have hinv : s.CloseInv := CloseInv.run (.start _) hs
  have h : SendInv (sending K) { transporter := transporter } t := .run _ hrun
  have hkept := h.metered.kept hfailure
  -- after the last flush nothing is kept that has not been sent
  have hsent : sentSpans K t.sender = sentSpans K { transporter := transporter } ++ t.handed := by
    have hflushed : sentSpans K t.sender = keptSpans K t.sender := h.flushed k hclosed hfailure
    have hstart : keptSpans K ({ transporter := transporter } : ThriftSender Tag Span σ) =
      sentSpans K { transporter := transporter } := keptSpans_of_nil K rfl
    rw [hflushed, ← hstart]
    exact hkept
  have hfifo := h.close.fifo
  rw [Fifo, List.append_assoc] at hfifo
  refine ⟨hsent, hinv.accepted_prefix_handed ht hsweeper (h.close.finished_of_closed hclosed),
    ⟨_, hfifo.symm⟩, ?_⟩
  have hsuccess : ((sentSpans K t.sender).length : ℤ) =
    (sentSpans K ({ transporter := transporter } : ThriftSender Tag Span σ)).length +
      t.metrics.success := h.metered.success hfailure
  rw [hsent, List.length_append] at hsuccess
  push_cast at hsuccess
  omega

/-- A span that is reported, and handed over while `close` waits. -/
theorem batches_of_closed_nat :
    let M : Machine (RemoteReporter Unit Unit ℕ _) _ := machine (sender UDPTransporter.natLink) 2
    ∃ s, M.run { sender := { transporter := [] } }
      [.call () 7, .report (), .report (), .report ()] =
        some s ∧
      ∃ t, M.run s [.report (), .close (), .close (), .close (), .sweep false, .sweep false,
        .sweep false, .sweep false, .sweep false, .sweep false, .close (), .close ()] = some t ∧
      t.sender.transporter.flatMap (·.spans) = [] ++ t.handed ∧ s.accepted <+: t.handed ∧
      t.handed <+: t.accepted ∧ t.metrics.success = t.handed.length := by
  refine .imp (fun s hs => ⟨hs, ?_⟩) (Option.isSome_iff_exists.mp rfl)
  refine .imp (fun t ht => ⟨ht, ?_⟩) (Option.isSome_iff_exists.mp (by cases hs; rfl))
  exact batches_of_closed (k := ()) UDPTransporter.natSent.toSentBatches [] hs ht (by cases hs; nofun)
    (by cases hs; cases ht; rfl) (by cases hs; cases ht; rfl)

end ThriftSender

end Reporting
