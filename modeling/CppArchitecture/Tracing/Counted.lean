import CppArchitecture.Core.Counting
import CppArchitecture.Tracing.Reported

/-!
# What is counted

The metrics of a tracer account for all of its spans. A span is counted as started before the
application gets it, and as finished after it is finished, so that there may be some threads between
the one and the other.
-/

namespace Tracing

open Core Tracer

variable {π ι : Type} [DecidableEq π] {p : π}

/-! ### Counters of new spans -/

/-- What a counter of the tracers counts, and where `startSpanInternal` is when it has been
incremented. -/
structure StartCounter (π : Type) where
  value : Metrics → ℕ
  counts : Span π → Bool
  past : StartPc → Bool
  past_created : past .created = false
  past_traced : past .traced = true
  counts_evolves {span span' : Span π} (h : span.Evolves span') : counts span' = counts span
  value_zero : value {} = 0
  value_increment (metrics : Metrics) (new : NewSpan π) {pc pc' : StartPc}
    (h : pc.next = some pc') :
    value (metrics.increment new.span new.isNew pc) + (past pc && counts new.span).toNat =
      value metrics + (past pc' && counts new.span).toNat
  value_finished (metrics : Metrics) (n : ℕ) :
    value { metrics with spansFinished := n } = value metrics

namespace StartCounter

def spansStarted : StartCounter π where
  value metrics := metrics.spansStarted
  counts _ := true
  past pc := pc ≠ .created
  past_created := rfl
  past_traced := rfl
  counts_evolves _ := rfl
  value_zero := rfl
  value_increment metrics new pc pc' h := by
    rw [Metrics.spansStarted_increment]
    cases pc <;> cases h <;> rfl
  value_finished _ _ := rfl

/-- The spans that are sampled and those that are not. -/
def spansSampled : StartCounter π where
  value metrics := metrics.spansSampled + metrics.spansNotSampled
  counts _ := true
  past pc := pc = .sampled ∨ pc = .traced
  past_created := rfl
  past_traced := rfl
  counts_evolves _ := rfl
  value_zero := rfl
  value_increment metrics new pc pc' h := by
    rw [Metrics.spansSampled_increment]
    cases pc <;> cases h <;> rfl
  value_finished _ _ := rfl

/-- The traces, by the spans that are their roots. -/
def tracesStarted : StartCounter π where
  value metrics := metrics.tracesStartedSampled + metrics.tracesStartedNotSampled
  counts span := span.context.parentID = 0
  past pc := pc = .traced
  past_created := rfl
  past_traced := rfl
  counts_evolves h := by rw [h.parentID]
  value_zero := rfl
  value_increment metrics new pc pc' h := by
    have hisNew : new.isNew = decide (new.span.context.parentID = 0) := by
      rw [Bool.eq_iff_iff, decide_eq_true_iff]
      exact new.isNew_iff
    rw [Metrics.tracesStarted_increment, hisNew]
    cases pc <;> cases h <;> simp
  value_finished _ _ := rfl

end StartCounter

variable {C : StartCounter π}

/-- Whether the thread has a span of the tracer that is counted and has not been returned. -/
def ThreadPc.unreturned (C : StartCounter π) (p : π) : ThreadPc π → ℕ
  | .starting pc new => (C.past pc && (new.span.tracer = p && C.counts new.span)).toNat
  | .idle | .finished _ | .counted _ | .sampled _ => 0

namespace System

variable [DecidableEq ι] {config : Config} {performs : Span.Operation → Prop} {s t : System π ι}
  {j : ι}

/-- How many spans of a tracer have been returned, of those that the counter counts. -/
def returned (s : System π ι) (C : StartCounter π) (p : π) : ℕ :=
  s.spans.countP fun span => span.tracer = p && C.counts span

omit [DecidableEq ι] in
/-- A span that has been changed counts for the same. -/
lemma returned_set {i : ℕ} {span span' : Span π} (hspan : s.spans[i]? = some span)
    (hevolves : span.Evolves span') :
    ((s.spans.set i span').countP fun span => span.tracer = p && C.counts span) =
      s.returned C p := by
  refine countP_set_eq hspan ?_
  rw [hevolves.tracer, C.counts_evolves hevolves]

section

variable [Fintype ι]

/-- The counter has counted the spans that have been returned, and those that are about to be. -/
def StartCounted (C : StartCounter π) (p : π) (s : System π ι) : Prop :=
  C.value (s.metrics p) = s.returned C p + ∑ j, (s.thread j).unreturned C p

/-- The sum when a thread has moved. -/
lemma sum_unreturned (pc : ThreadPc π) :
    ∑ k, (Function.update s.thread j pc k).unreturned C p + (s.thread j).unreturned C p =
      ∑ k, (s.thread k).unreturned C p + pc.unreturned C p := by
  have hsum := sum_add_of_ne (i := j) (f := fun k => (s.thread k).unreturned C p)
    (g := fun k => (Function.update s.thread j pc k).unreturned C p) fun k hk => by
      rw [Function.update_of_ne hk]
  rwa [Function.update_self] at hsum

/-- Steps after which the spans count for the same, and the counters of new spans are the same. -/
lemma StartCounted.moved (h : StartCounted C p s) {pc : ThreadPc π}
    (hpc : pc.unreturned C p = (s.thread j).unreturned C p)
    (hthread : t.thread = Function.update s.thread j pc)
    (hvalue : C.value (t.metrics p) = C.value (s.metrics p))
    (hreturned : t.returned C p = s.returned C p) : StartCounted C p t := by
  have hsum := sum_unreturned (s := s) (j := j) (C := C) (p := p) pc
  rw [hpc, Nat.add_right_cancel_iff] at hsum
  rw [StartCounted, hvalue, hreturned, hthread, hsum]
  exact h

lemma StartCounted.step (h : StartCounted C p s) (hstep : Step config performs s t) :
    StartCounted C p t := by
  cases hstep with
  | context | inject | extract | receive => exact h
  | start hthread hheld hstart =>
    refine h.moved ?_ rfl rfl rfl
    rw [hthread, ThreadPc.unreturned, C.past_created]
    rfl
  | @increment j pc pc' new hthread hnext =>
    have hsum := sum_unreturned (s := s) (j := j) (C := C) (p := p) (.starting pc' new)
    rw [hthread, ThreadPc.unreturned, ThreadPc.unreturned] at hsum
    rw [StartCounted] at h ⊢
    dsimp only
    by_cases hp : new.span.tracer = p
    · -- the counter goes up when the thread passes its increment
      have hvalue := C.value_increment (s.metrics p) new hnext
      simp only [hp, decide_true, Bool.true_and] at hsum
      subst hp
      rw [Function.update_self]
      change _ = s.returned C _ + _
      omega
    · simp only [hp, decide_false, Bool.false_and, Bool.and_false, Bool.toNat_false,
        Nat.add_zero] at hsum
      rw [Function.update_of_ne (Ne.symm hp), hsum]
      exact h
  | @startReturn j new hthread =>
    -- the span has been counted, and is among those that are returned now
    have hsum := sum_unreturned (s := s) (j := j) (C := C) (p := p) .idle
    rw [hthread, ThreadPc.unreturned, C.past_traced, Bool.true_and, ThreadPc.unreturned] at hsum
    have hreturned : ((s.spans ++ [new.span]).countP fun span =>
        span.tracer = p && C.counts span) =
        s.returned C p + (new.span.tracer = p && C.counts new.span).toNat := by
      rw [List.countP_append, List.countP_singleton, Bool.toNat, Bool.cond_eq_ite]
      rfl
    rw [StartCounted] at h ⊢
    rw [returned]
    dsimp only
    omega
  | @perform i span op hop hspan =>
    have hreturned := returned_set (p := p) (C := C) hspan (Span.Evolves.perform op span)
    exact h.trans (congrArg (· + _) hreturned.symm)
  | finish finishTimeSteady logRecords hthread hspan hfinished =>
    refine h.moved ?_ rfl rfl (returned_set hspan (Span.Evolves.finish _ _ hfinished))
    rw [hthread]
    rfl
  | @count j i span hthread hspan =>
    refine h.moved ?_ rfl ?_ rfl
    · rw [hthread]
      rfl
    · by_cases hp : p = span.tracer
      · subst hp
        dsimp only
        rw [Function.update_self]
        exact C.value_finished _ _
      · dsimp only
        rw [Function.update_of_ne hp]
  | check hthread hspan =>
    refine h.moved ?_ rfl rfl rfl
    rw [hthread]
    split_ifs <;> rfl
  | report hthread hspan =>
    refine h.moved ?_ rfl rfl rfl
    rw [hthread]
    rfl

lemma Reachable.startCounted (C : StartCounter π) (p : π) (hrun : Reachable config performs s) :
    StartCounted C p s := by
  refine hrun.invariant ?_ fun s t hs hstep => hs.step hstep
  exact C.value_zero.trans ((Nat.zero_add _).trans (Finset.sum_eq_zero fun j _ => rfl)).symm

end

/-! ### The counter of finished spans -/

/-- Whether the thread is about to count a finished span of the tracer. -/
def uncounted (s : System π ι) (p : π) (j : ι) : ℕ :=
  match s.thread j with
  | .finished i => (decide ((s.spans[i]?).map Span.tracer = some p)).toNat
  | .idle | .starting _ _ | .counted _ | .sampled _ => 0

omit [DecidableEq ι] in
lemma uncounted_of_finished {i : ℕ} {span : Span π} (hthread : s.thread j = .finished i)
    (hspan : s.spans[i]? = some span) : s.uncounted p j = (decide (span.tracer = p)).toNat := by
  rw [uncounted, hthread]
  simp [hspan]

omit [DecidableEq ι] in
lemma uncounted_eq_zero (h : ∀ i, s.thread j ≠ .finished i) : s.uncounted p j = 0 := by
  cases hpc : s.thread j with
  | finished i => exact absurd hpc (h i)
  | idle | starting | counted | sampled => rw [uncounted, hpc]

omit [DecidableEq ι] in
/-- A thread that has not moved. -/
lemma uncounted_congr (h : Reports s) (hevolve : Evolve s t) (hthread : t.thread j = s.thread j) :
    t.uncounted p j = s.uncounted p j := by
  cases hpc : s.thread j with
  | finished i =>
    obtain ⟨⟨span, hspan, -⟩, -⟩ := h.thread j i (by rw [hpc]; rfl)
    obtain ⟨span', hspan', hevolves⟩ := hevolve i span hspan
    rw [uncounted_of_finished hpc hspan, uncounted_of_finished (hthread.trans hpc) hspan',
      hevolves.tracer]
  | idle | starting | counted | sampled =>
    rw [uncounted, uncounted, hthread, hpc]

/-- A thread that moves without finishing or counting a span. -/
lemma uncounted_of_moved {pc : ThreadPc π} (hreports : Reports s) (hevolve : Evolve s t)
    (hthread : t.thread = Function.update s.thread j pc) (hbefore : ∀ i, s.thread j ≠ .finished i)
    (hafter : ∀ i, pc ≠ .finished i) (k : ι) : t.uncounted p k = s.uncounted p k := by
  by_cases hk : k = j
  · subst hk
    rw [uncounted_eq_zero hbefore, uncounted_eq_zero]
    rwa [hthread, Function.update_self]
  · refine uncounted_congr hreports hevolve ?_
    rw [hthread, Function.update_of_ne hk]

variable [Fintype ι]

/-- The counter has counted the spans that are finished, but for those that are about to be
counted. -/
def FinishCounted (p : π) (s : System π ι) : Prop :=
  (s.metrics p).spansFinished + ∑ j, s.uncounted p j =
    s.spans.countP fun span => span.tracer = p ∧ span.isFinished = true

omit [DecidableEq ι] in
/-- Steps after which the counter, the spans and the threads count for the same. -/
lemma FinishCounted.congr (h : FinishCounted p s)
    (hmetrics : (t.metrics p).spansFinished = (s.metrics p).spansFinished)
    (hspans : (t.spans.countP fun span => span.tracer = p ∧ span.isFinished = true) =
      s.spans.countP fun span => span.tracer = p ∧ span.isFinished = true)
    (hthread : ∀ j, t.uncounted p j = s.uncounted p j) : FinishCounted p t := by
  rw [FinishCounted, hmetrics, hspans, Finset.sum_congr rfl fun j _ => hthread j]
  exact h

lemma FinishCounted.step (hreports : Reports s) (h : FinishCounted p s)
    (hstep : Step config performs s t) : FinishCounted p t := by
  have hevolve := hstep.evolve
  cases hstep with
  | context | inject | extract | receive => exact h
  | start hthread hheld hstart =>
    exact h.congr rfl rfl (uncounted_of_moved hreports hevolve rfl (by simp [hthread]) (by simp))
  | @increment j pc pc' new hthread hnext =>
    refine h.congr ?_ rfl (uncounted_of_moved hreports hevolve rfl (by simp [hthread]) (by simp))
    by_cases hp : p = new.span.tracer
    · subst hp
      dsimp only
      rw [Function.update_self, Metrics.spansFinished_increment]
    · dsimp only
      rw [Function.update_of_ne hp]
  | @startReturn j new hthread =>
    refine h.congr rfl ?_ (uncounted_of_moved hreports hevolve rfl (by simp [hthread]) (by simp))
    have hunfinished : new.span.isFinished = false := by
      rw [Span.isFinished, new.duration]
      rfl
    simp [List.countP_append, hunfinished]
  | @perform i span op hop hspan =>
    have hevolves := Span.Evolves.perform op span
    refine h.congr rfl (countP_set_eq hspan ?_) fun j => uncounted_congr hreports hevolve rfl
    simp only [hevolves.tracer, Span.isFinished_perform]
  | @finish j i span finishTimeSteady logRecords hthread hspan hfinished =>
    -- one more is finished, and its thread has not counted it
    have hevolves := Span.Evolves.finish finishTimeSteady logRecords hfinished
    have hisFinished := Span.isFinished_finish finishTimeSteady logRecords span
    have hlt := (List.getElem?_eq_some_iff.mp hspan).1
    have hcount := countP_set_add (b := span.finish finishTimeSteady logRecords)
      (p := fun span => decide (span.tracer = p ∧ span.isFinished = true)) hspan
    have hsum := sum_add_of_ne (i := j) fun k hk =>
      uncounted_congr (p := p) hreports hevolve (Function.update_of_ne hk _ _)
    rw [uncounted_eq_zero (by simp [hthread]), uncounted_of_finished (Function.update_self _ _ _)
      (List.getElem?_set_self hlt), hevolves.tracer] at hsum
    simp only [hevolves.tracer, hisFinished, hfinished, Bool.false_eq_true, and_false, and_true,
      decide_false, Bool.toNat_false] at hcount
    rw [FinishCounted] at h ⊢
    dsimp only
    omega
  | @count j i span hthread hspan =>
    -- one more is counted, and there is one thread less that has to
    have hsum := sum_add_of_ne (i := j) fun k hk =>
      uncounted_congr (p := p) hreports hevolve (Function.update_of_ne hk _ _)
    rw [uncounted_of_finished hthread hspan, uncounted_eq_zero (by simp)] at hsum
    rw [FinishCounted] at h ⊢
    by_cases htracer : p = span.tracer
    · subst htracer
      simp only [decide_true, Bool.toNat_true] at hsum
      dsimp only
      rw [Function.update_self]
      dsimp only
      omega
    · simp only [Ne.symm htracer, decide_false, Bool.toNat_false, add_zero] at hsum
      dsimp only
      rw [Function.update_of_ne htracer, hsum]
      exact h
  | check hthread hspan =>
    refine h.congr rfl rfl (uncounted_of_moved hreports hevolve rfl (by simp [hthread]) ?_)
    split_ifs <;> simp
  | report hthread hspan =>
    exact h.congr rfl rfl (uncounted_of_moved hreports hevolve rfl (by simp [hthread]) (by simp))

lemma Reachable.finishCounted (p : π) (hrun : Reachable config performs s) :
    FinishCounted p s := by
  induction hrun with
  | refl => exact (Nat.zero_add _).trans (Finset.sum_eq_zero fun j _ => rfl)
  | tail hfirst hlast ih => exact ih.step (Reachable.reports hfirst) hlast

/-! ### The metrics -/

/-- The metrics of a tracer account for its spans. Each of those that have been returned has been
counted as started, as sampled or not, and with its trace if it is the root; what is counted besides
are spans that threads are about to return. Each that is finished is counted once, but for those
that threads are about to count. -/
theorem counted_of_reachable (hrun : Reachable config performs s) (p : π) :
    (s.metrics p).spansStarted = (s.spans.countP fun span => span.tracer = p) +
        ∑ j, (s.thread j).unreturned .spansStarted p ∧
      (s.metrics p).spansSampled + (s.metrics p).spansNotSampled =
        (s.spans.countP fun span => span.tracer = p) +
          ∑ j, (s.thread j).unreturned .spansSampled p ∧
      (s.metrics p).tracesStartedSampled + (s.metrics p).tracesStartedNotSampled =
        (s.spans.countP fun span => span.tracer = p ∧ span.context.parentID = 0) +
          ∑ j, (s.thread j).unreturned .tracesStarted p ∧
      (s.metrics p).spansFinished + ∑ j, s.uncounted p j =
        s.spans.countP fun span => span.tracer = p ∧ span.isFinished = true := by
  have hstarted := hrun.startCounted .spansStarted p
  have hsampled := hrun.startCounted .spansSampled p
  have htraces := hrun.startCounted .tracesStarted p
  refine ⟨?_, ?_, ?_, hrun.finishCounted p⟩
  · simpa [StartCounted, returned, StartCounter.spansStarted] using hstarted
  · simpa [StartCounted, returned, StartCounter.spansSampled] using hsampled
  · simpa [StartCounted, returned, StartCounter.tracesStarted] using htraces

theorem counted_of_reachable_once :
    ∃ s : System Unit Unit, (s.metrics ()).spansFinished = 1 ∧
      (s.metrics ()).spansStarted = (s.spans.countP fun span => span.tracer = ()) +
        ∑ j, (s.thread j).unreturned .spansStarted () ∧
      (s.metrics ()).spansFinished + ∑ j, s.uncounted () j =
        s.spans.countP fun span => span.tracer = () ∧ span.isFinished = true := by
  obtain ⟨s, hrun, -, hfinished⟩ := exists_reported
  obtain ⟨hstarted, -, -, hcount⟩ := counted_of_reachable hrun ()
  exact ⟨s, hfinished, hstarted, hcount⟩

end System

end Tracing
