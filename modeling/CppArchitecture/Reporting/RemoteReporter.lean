import CppArchitecture.Core.Machine
import CppArchitecture.Core.Mutex
import CppArchitecture.Reporting.ThriftSender
import Mathlib.Logic.Function.Basic

/-!
# A reporter with a queue

A `RemoteReporter` has a queue of spans and a thread that sweeps it. Any number of threads report
spans, which puts them into the queue or drops them; the sweeper hands the spans of the queue to
the sender, one at a time; and any number of threads call `close`. They take their steps in any
order. The queue is shared under a mutex, the count of its spans is not.
-/

namespace Reporting

open Core

/-- Where a thread stands that calls `report`. -/
inductive ReportPc (Span : Type) where
  | idle
  /-- `lock(_mutex)` has not returned. -/
  | entering (span : Span)
  | holding (span : Span)
  /-- Whether the queue has room has been read. -/
  | checked (span : Span) (pushed : Bool)
  /-- The lock has been released, and `++_queueLength` is to come. -/
  | pushed

/-- Where the thread stands that runs `sweepQueue`. -/
inductive SweepPc (Span : Type) where
  /-- The lock has not been acquired, or `wait_until` has not returned. -/
  | waiting
  | holding
  /-- A span has been popped, and `--_queueLength` is to come. -/
  | popped (span : Span)
  | sending (span : Span)
  | flushing
  | finished

/-- Where a call of `close` stands. -/
inductive ClosePc where
  | idle
  | entering
  | holding
  /-- `_running` has been set to false, and `_thread.join()` has not returned. -/
  | joining
  | flushing
  | closed
  /-- The reporter had been closed before. -/
  | returned

/-- Between the acquisition of the mutex and its release. -/
def ReportPc.Critical {Span : Type} : ReportPc Span → Prop
  | .holding _ | .checked _ _ => True
  | .idle | .entering _ | .pushed => False

/-- Between the acquisition of the mutex and its release. -/
def SweepPc.Critical {Span : Type} : SweepPc Span → Prop
  | .holding | .popped _ | .sending _ | .flushing => True
  | .waiting | .finished => False

/-- Between the acquisition of the mutex and its release. -/
def ClosePc.Critical : ClosePc → Prop
  | .holding => True
  | .idle | .entering | .joining | .flushing | .closed | .returned => False

/-- Whether the span of the thread is in the queue and not yet in the count. -/
def ReportPc.uncounted {Span : Type} : ReportPc Span → ℤ
  | .pushed => 1
  | .idle | .entering _ | .holding _ | .checked _ _ => 0

/-- Whether the call of the thread has neither taken its span nor dropped it yet. -/
def ReportPc.undecided {Span : Type} : ReportPc Span → ℤ
  | .entering _ | .holding _ | .checked _ _ => 1
  | .idle | .pushed => 0

/-- The span that has been popped and not yet handed over. -/
def SweepPc.inFlight {Span : Type} : SweepPc Span → List Span
  | .popped span | .sending span => [span]
  | .waiting | .holding | .flushing | .finished => []

/-- Whether a span is no longer in the queue and still in the count. -/
def SweepPc.counted {Span : Type} : SweepPc Span → ℤ
  | .popped _ => 1
  | .waiting | .holding | .sending _ | .flushing | .finished => 0

/-- The call has set `_running` to false. -/
def ClosePc.Stopped : ClosePc → Prop
  | .joining | .flushing | .closed => True
  | .idle | .entering | .holding | .returned => False

/-- The call has joined the sweeper. -/
def ClosePc.Joined : ClosePc → Prop
  | .flushing | .closed => True
  | .idle | .entering | .holding | .joining | .returned => False

/-- The threads that take the mutex. -/
inductive Client (ι κ : Type) where
  | reporter (i : ι)
  | sweeper
  | closer (k : κ)

/-- The metrics a reporter writes. -/
structure Metrics where
  dropped : ℤ := 0
  success : ℤ := 0
  failure : ℤ := 0
  queueLength : ℤ := 0

/-- A reporter with its threads: `ι` are those that report, and `κ` the calls of `close`. The spans
that have been accepted into the queue and those that have been handed to the sender are written
down as well. -/
structure RemoteReporter (ι κ Span τ : Type) where
  reporter : ι → ReportPc Span := fun _ => .idle
  sweeper : SweepPc Span := .waiting
  closer : κ → ClosePc := fun _ => .idle
  mutex : Mutex (Client ι κ) := {}
  queue : List Span := []
  queueLength : ℤ := 0
  running : Bool := true
  sender : τ
  metrics : Metrics := {}
  accepted : List Span := []
  handed : List Span := []

namespace RemoteReporter

variable {ι κ Span τ : Type} [DecidableEq ι] [DecidableEq κ]

def setReporter (s : RemoteReporter ι κ Span τ) (i : ι) (pc : ReportPc Span) :
    RemoteReporter ι κ Span τ :=
  { s with reporter := Function.update s.reporter i pc }

def setCloser (s : RemoteReporter ι κ Span τ) (k : κ) (pc : ClosePc) :
    RemoteReporter ι κ Span τ :=
  { s with closer := Function.update s.closer k pc }

/-- `sendSpan`, where the sender does not throw anything but its own exception. What the sender does
and what is counted of it are one step: the mutex is held meanwhile. -/
def sendSpan (S : Sender Span τ) (s : RemoteReporter ι κ Span τ) (span : Span) :
    RemoteReporter ι κ Span τ :=
  match (S.append span).run s.sender with
  | .ok flushed d =>
    if 0 < flushed then
      { s with
        sender := d
        metrics := { s.metrics with
          success := s.metrics.success + flushed
          queueLength := s.queueLength } }
    else { s with sender := d }
  | .error ex d =>
    { s with
      sender := d
      metrics := { s.metrics with failure := s.metrics.failure + ex.numFailed } }

/-- `flush`, one step as well: the mutex is held meanwhile, or the sweeper has been joined. -/
def flush (S : Sender Span τ) (s : RemoteReporter ι κ Span τ) : RemoteReporter ι κ Span τ :=
  match S.flush.run s.sender with
  | .ok flushed d =>
    if 0 < flushed then
      { s with
        sender := d
        metrics := { s.metrics with success := s.metrics.success + flushed } }
    else { s with sender := d }
  | .error ex d =>
    { s with
      sender := d
      metrics := { s.metrics with failure := s.metrics.failure + ex.numFailed } }

/-- The next step of a thread that reports a span. -/
def report (fixedQueueSize : ℤ) (s : RemoteReporter ι κ Span τ) (i : ι) :
    Option (RemoteReporter ι κ Span τ) :=
  match s.reporter i with
  | .idle => none
  | .entering span => (s.mutex.lock (.reporter i)).map fun mutex =>
      { s.setReporter i (.holding span) with mutex := mutex }
  | .holding span =>
    some (s.setReporter i (.checked span (decide ((s.queue.length : ℤ) < fixedQueueSize))))
  | .checked span true =>
    some { s.setReporter i .pushed with
      queue := s.queue ++ [span]
      mutex := s.mutex.unlock
      accepted := s.accepted ++ [span] }
  | .checked _ false =>
    some { s.setReporter i .idle with
      mutex := s.mutex.unlock
      metrics := { s.metrics with dropped := s.metrics.dropped + 1 } }
  | .pushed => some { s.setReporter i .idle with queueLength := s.queueLength + 1 }

/-- The next step of the sweeper. `expired` is whether the flush interval has passed. -/
def sweepQueue (S : Sender Span τ) (s : RemoteReporter ι κ Span τ) (expired : Bool) :
    Option (RemoteReporter ι κ Span τ) :=
  match s.sweeper with
  | .waiting =>
    if !s.running || !s.queue.isEmpty || expired then
      (s.mutex.lock .sweeper).map fun mutex => { s with sweeper := .holding, mutex := mutex }
    else none
  | .holding =>
    if !s.running && s.queue.isEmpty then
      some { s with sweeper := .finished, mutex := s.mutex.unlock }
    else
      match s.queue with
      | span :: queue => some { s with sweeper := .popped span, queue := queue }
      | [] =>
        if expired then some { s with sweeper := .flushing }
        else some { s with sweeper := .waiting, mutex := s.mutex.unlock }
  | .popped span => some { s with sweeper := .sending span, queueLength := s.queueLength - 1 }
  | .sending span =>
    some { s.sendSpan S span with
      sweeper := .waiting
      mutex := s.mutex.unlock
      handed := s.handed ++ [span] }
  | .flushing => some { s.flush S with sweeper := .waiting, mutex := s.mutex.unlock }
  | .finished => none

/-- The next step of a call of `close`. -/
def close (S : Sender Span τ) (s : RemoteReporter ι κ Span τ) (k : κ) :
    Option (RemoteReporter ι κ Span τ) :=
  match s.closer k with
  | .idle => some (s.setCloser k .entering)
  | .entering => (s.mutex.lock (.closer k)).map fun mutex =>
      { s.setCloser k .holding with mutex := mutex }
  | .holding =>
    if s.running then
      some { s.setCloser k .joining with running := false, mutex := s.mutex.unlock }
    else some { s.setCloser k .returned with mutex := s.mutex.unlock }
  | .joining =>
    match s.sweeper with
    | .finished => some (s.setCloser k .flushing)
    | _ => none
  | .flushing => some ((s.flush S).setCloser k .closed)
  | .closed => none
  | .returned => none

end RemoteReporter

/-- A thread calls `report`, or one of the threads takes its next step. -/
inductive Action (ι κ Span : Type) where
  | call (i : ι) (span : Span)
  | report (i : ι)
  | sweep (expired : Bool)
  | close (k : κ)

def Action.IsCall {ι κ Span : Type} : Action ι κ Span → Bool
  | .call _ _ => true
  | .report _ | .sweep _ | .close _ => false

def Action.IsSweep {ι κ Span : Type} : Action ι κ Span → Bool
  | .sweep _ => true
  | .call _ _ | .report _ | .close _ => false

namespace RemoteReporter

variable {ι κ Span τ : Type} [DecidableEq ι] [DecidableEq κ]

def machine (S : Sender Span τ) (fixedQueueSize : ℤ) :
    Machine (RemoteReporter ι κ Span τ) (Action ι κ Span) where
  step s
    | .call i span =>
      match s.reporter i with
      | .idle => some (s.setReporter i (.entering span))
      | _ => none
    | .report i => s.report fixedQueueSize i
    | .sweep expired => s.sweepQueue S expired
    | .close k => s.close S k

/-! ### What a step does -/

/-- The steps of the threads. -/
inductive Moves (S : Sender Span τ) (fixedQueueSize : ℤ) (s : RemoteReporter ι κ Span τ) :
    Action ι κ Span → RemoteReporter ι κ Span τ → Prop
  | call (i : ι) (span : Span) (hpc : s.reporter i = .idle) :
    Moves S fixedQueueSize s (.call i span) (s.setReporter i (.entering span))
  | enter (i : ι) (span : Span) (mutex : Mutex (Client ι κ)) (hpc : s.reporter i = .entering span)
      (hlock : s.mutex.lock (.reporter i) = some mutex) :
    Moves S fixedQueueSize s (.report i) { s.setReporter i (.holding span) with mutex := mutex }
  | check (i : ι) (span : Span) (hpc : s.reporter i = .holding span) :
    Moves S fixedQueueSize s (.report i)
      (s.setReporter i (.checked span (decide ((s.queue.length : ℤ) < fixedQueueSize))))
  | push (i : ι) (span : Span) (hpc : s.reporter i = .checked span true) :
    Moves S fixedQueueSize s (.report i) { s.setReporter i .pushed with
      queue := s.queue ++ [span]
      mutex := s.mutex.unlock
      accepted := s.accepted ++ [span] }
  | drop (i : ι) (span : Span) (hpc : s.reporter i = .checked span false) :
    Moves S fixedQueueSize s (.report i) { s.setReporter i .idle with
      mutex := s.mutex.unlock
      metrics := { s.metrics with dropped := s.metrics.dropped + 1 } }
  | count (i : ι) (hpc : s.reporter i = .pushed) :
    Moves S fixedQueueSize s (.report i)
      { s.setReporter i .idle with queueLength := s.queueLength + 1 }
  | wake {expired : Bool} (mutex : Mutex (Client ι κ)) (hpc : s.sweeper = .waiting)
      (hlock : s.mutex.lock .sweeper = some mutex) :
    Moves S fixedQueueSize s (.sweep expired) { s with sweeper := .holding, mutex := mutex }
  | exit {expired : Bool} (hpc : s.sweeper = .holding) (hrunning : s.running = false)
      (hqueue : s.queue = []) :
    Moves S fixedQueueSize s (.sweep expired)
      { s with sweeper := .finished, mutex := s.mutex.unlock }
  | pop {expired : Bool} (span : Span) (queue : List Span) (hpc : s.sweeper = .holding)
      (hqueue : s.queue = span :: queue) :
    Moves S fixedQueueSize s (.sweep expired) { s with sweeper := .popped span, queue := queue }
  | expire {expired : Bool} (hpc : s.sweeper = .holding) (hrunning : s.running = true)
      (hqueue : s.queue = []) :
    Moves S fixedQueueSize s (.sweep expired) { s with sweeper := .flushing }
  | rest {expired : Bool} (hpc : s.sweeper = .holding) (hrunning : s.running = true)
      (hqueue : s.queue = []) :
    Moves S fixedQueueSize s (.sweep expired)
      { s with sweeper := .waiting, mutex := s.mutex.unlock }
  | uncount {expired : Bool} (span : Span) (hpc : s.sweeper = .popped span) :
    Moves S fixedQueueSize s (.sweep expired)
      { s with sweeper := .sending span, queueLength := s.queueLength - 1 }
  | send {expired : Bool} (span : Span) (hpc : s.sweeper = .sending span) :
    Moves S fixedQueueSize s (.sweep expired) { s.sendSpan S span with
      sweeper := .waiting
      mutex := s.mutex.unlock
      handed := s.handed ++ [span] }
  | flush {expired : Bool} (hpc : s.sweeper = .flushing) :
    Moves S fixedQueueSize s (.sweep expired)
      { s.flush S with sweeper := .waiting, mutex := s.mutex.unlock }
  | startClose (k : κ) (hpc : s.closer k = .idle) :
    Moves S fixedQueueSize s (.close k) (s.setCloser k .entering)
  | enterClose (k : κ) (mutex : Mutex (Client ι κ)) (hpc : s.closer k = .entering)
      (hlock : s.mutex.lock (.closer k) = some mutex) :
    Moves S fixedQueueSize s (.close k) { s.setCloser k .holding with mutex := mutex }
  | stop (k : κ) (hpc : s.closer k = .holding) (hrunning : s.running = true) :
    Moves S fixedQueueSize s (.close k)
      { s.setCloser k .joining with running := false, mutex := s.mutex.unlock }
  | leave (k : κ) (hpc : s.closer k = .holding) (hrunning : s.running = false) :
    Moves S fixedQueueSize s (.close k) { s.setCloser k .returned with mutex := s.mutex.unlock }
  | join (k : κ) (hpc : s.closer k = .joining) (hsweeper : s.sweeper = .finished) :
    Moves S fixedQueueSize s (.close k) (s.setCloser k .flushing)
  | lastFlush (k : κ) (hpc : s.closer k = .flushing) :
    Moves S fixedQueueSize s (.close k) ((s.flush S).setCloser k .closed)

variable {S : Sender Span τ} {fixedQueueSize : ℤ} {s t : RemoteReporter ι κ Span τ}

lemma moves_of_report {i : ι} (h : s.report fixedQueueSize i = some t) :
    Moves S fixedQueueSize s (.report i) t := by
  cases hpc : s.reporter i with
  | idle => simp [report, hpc] at h
  | entering span =>
    simp only [report, hpc, Option.map_eq_some_iff] at h
    obtain ⟨mutex, hlock, rfl⟩ := h
    exact .enter i span mutex hpc hlock
  | holding span =>
    simp only [report, hpc, Option.some.injEq] at h
    subst h
    exact .check i span hpc
  | checked span room =>
    cases room with
    | true =>
      simp only [report, hpc, Option.some.injEq] at h
      subst h
      exact .push i span hpc
    | false =>
      simp only [report, hpc, Option.some.injEq] at h
      subst h
      exact .drop i span hpc
  | pushed =>
    simp only [report, hpc, Option.some.injEq] at h
    subst h
    exact .count i hpc

lemma moves_of_sweepQueue {expired : Bool} (h : s.sweepQueue S expired = some t) :
    Moves S fixedQueueSize s (.sweep expired) t := by
  cases hpc : s.sweeper with
  | waiting =>
    simp only [sweepQueue, hpc, Option.ite_none_right_eq_some, Option.map_eq_some_iff] at h
    obtain ⟨_, mutex, hlock, rfl⟩ := h
    exact .wake mutex hpc hlock
  | holding =>
    simp only [sweepQueue, hpc] at h
    split at h
    · next hexit =>
      cases h
      rw [Bool.and_eq_true, Bool.not_eq_true', List.isEmpty_iff] at hexit
      exact .exit hpc hexit.1 hexit.2
    · next hstay =>
      split at h
      · next span queue hqueue =>
        cases h
        exact .pop span queue hpc hqueue
      · next hqueue =>
        -- it has not left, so that somebody may still report
        have hrunning : s.running = true := by
          rw [hqueue] at hstay
          simpa using hstay
        split_ifs at h with hexpired
        · cases h
          exact .expire hpc hrunning hqueue
        · cases h
          exact .rest hpc hrunning hqueue
  | popped span =>
    simp only [sweepQueue, hpc, Option.some.injEq] at h
    subst h
    exact .uncount span hpc
  | sending span =>
    simp only [sweepQueue, hpc, Option.some.injEq] at h
    subst h
    exact .send span hpc
  | flushing =>
    simp only [sweepQueue, hpc, Option.some.injEq] at h
    subst h
    exact .flush hpc
  | finished => simp [sweepQueue, hpc] at h

lemma moves_of_close {k : κ} (h : s.close S k = some t) :
    Moves S fixedQueueSize s (.close k) t := by
  cases hpc : s.closer k with
  | idle =>
    simp only [close, hpc, Option.some.injEq] at h
    subst h
    exact .startClose k hpc
  | entering =>
    simp only [close, hpc, Option.map_eq_some_iff] at h
    obtain ⟨mutex, hlock, rfl⟩ := h
    exact .enterClose k mutex hpc hlock
  | holding =>
    -- the first thread stops the reporter, and the others return
    simp only [close, hpc] at h
    split_ifs at h with hrunning
    · cases h
      exact .stop k hpc hrunning
    · cases h
      exact .leave k hpc (Bool.not_eq_true _ ▸ hrunning)
  | joining =>
    simp only [close, hpc] at h
    -- `join` waits for the sweeper to finish
    cases hsweeper : s.sweeper with
    | finished =>
      simp only [hsweeper, Option.some.injEq] at h
      subst h
      exact .join k hpc hsweeper
    | waiting | holding | popped _ | sending _ | flushing => simp [hsweeper] at h
  | flushing =>
    simp only [close, hpc, Option.some.injEq] at h
    subst h
    exact .lastFlush k hpc
  | closed | returned => simp [close, hpc] at h

lemma moves_of_step {a : Action ι κ Span} (h : (machine S fixedQueueSize).step s a = some t) :
    Moves S fixedQueueSize s a t := by
  match a with
  | .call i span =>
    cases hpc : s.reporter i with
    | idle =>
      simp only [machine, hpc, Option.some.injEq] at h
      subst h
      exact .call i span hpc
    | entering _ | holding _ | checked _ _ | pushed => simp [machine, hpc] at h
  | .report i => exact moves_of_report h
  | .sweep expired => exact moves_of_sweepQueue h
  | .close k => exact moves_of_close h

end RemoteReporter

end Reporting
