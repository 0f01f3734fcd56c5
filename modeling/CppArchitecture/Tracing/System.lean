import CppArchitecture.Tracing.Carriers
import CppArchitecture.Tracing.Tracer
import Mathlib.Logic.Function.Basic
import Mathlib.Logic.Relation

/-!
# A system of tracers

Processes start spans and send each other the contexts of spans, in carriers that may get lost, come
late or come more than once. However that goes, every span is the root of its trace or has a parent
that was started before it, in whatever process, unless its parent is known from elsewhere only.
-/

namespace Tracing

open Core

/-- Where a thread is in `startSpanInternal`, or in `FinishWithOptions` when it has finished the span
with the number `i`. -/
inductive ThreadPc (π : Type) where
  | idle
  /-- It has made a span. -/
  | starting (pc : Tracer.StartPc) (new : Tracer.NewSpan π)
  /-- It is about to count the span. -/
  | finished (i : ℕ)
  /-- It is about to look whether the span is sampled. -/
  | counted (i : ℕ)
  /-- It is about to hand the span to the reporter, which makes a copy. -/
  | sampled (i : ℕ)

/-- Tracers from `π` and threads from `ι`. The spans have the numbers in which they have been
returned to the applications, and the reporters have been given copies of some of them. -/
structure System (π ι : Type) where
  spans : List (Span π) := []
  /-- The contexts that the application of a tracer has got from it. -/
  contexts : π → List SpanContext := fun _ => []
  carriers : List Carrier := []
  /-- The contexts that have been extracted from carriers of unknown origin. -/
  foreign : List SpanContext := []
  metrics : π → Tracer.Metrics := fun _ => {}
  thread : ι → ThreadPc π := fun _ => .idle
  reported : List (ℕ × Span π) := []

namespace System

variable {π ι : Type} [DecidableEq π] [DecidableEq ι] {config : Config}
  {performs : Span.Operation → Prop} {s t : System π ι}

def hold (s : System π ι) (p : π) (ctx : SpanContext) : System π ι :=
  { s with contexts := Function.update s.contexts p (ctx :: s.contexts p) }

/-- The steps of a system whose tracers have one configuration, and whose applications perform some
operations on the spans. -/
inductive Step (config : Config) (performs : Span.Operation → Prop) :
    System π ι → System π ι → Prop where
  -- A span may be made from any context for itself, but refers to contexts from its own tracer.
  | start {s : System π ι} {j : ι} {p : π} {gen128Bit : Bool} {env : Tracer.Environment}
      {operationName : List UInt8} {options : Tracer.StartSpanOptions} {span : Span π}
      {isNew : Bool} (hthread : s.thread j = .idle)
      (hheld : ∀ ref ∈ options.references, ∀ ctx, ref.2 = some ctx →
        ref.1 = .selfRef ∨ ctx ∈ s.contexts p)
      (hstart : Tracer.startSpanWithOptions p gen128Bit env operationName options =
        some (span, isNew)) :
      Step config performs s { s with
        thread := Function.update s.thread j (.starting .created (.ofStarted hstart)) }
  -- `startSpanInternal`, which holds no mutex
  | increment {s : System π ι} {j : ι} {pc pc' : Tracer.StartPc} {new : Tracer.NewSpan π}
      (hthread : s.thread j = .starting pc new) (hnext : pc.next = some pc') :
      Step config performs s { s with
        metrics := Function.update s.metrics new.span.tracer
          ((s.metrics new.span.tracer).increment new.span new.isNew pc)
        thread := Function.update s.thread j (.starting pc' new) }
  | startReturn {s : System π ι} {j : ι} {new : Tracer.NewSpan π}
      (hthread : s.thread j = .starting .traced new) :
      Step config performs s { s with
        spans := s.spans ++ [new.span]
        thread := Function.update s.thread j .idle }
  | context {s : System π ι} {i : ℕ} {span : Span π} (hspan : s.spans[i]? = some span) :
      Step config performs s (s.hold span.tracer span.context)
  | perform {s : System π ι} {i : ℕ} {span : Span π} {op : Span.Operation} (hop : performs op)
      (hspan : s.spans[i]? = some span) :
      Step config performs s { s with spans := s.spans.set i (span.perform op) }
  | inject {s : System π ι} {p : π} {ctx : SpanContext} {c : Carrier} (hctx : ctx ∈ s.contexts p)
      (hc : Tracer.Injects config ctx c) :
      Step config performs s { s with carriers := c :: s.carriers }
  | extract {s : System π ι} {p : π} {ctx : SpanContext} {c : Carrier} (hc : c ∈ s.carriers)
      (hctx : Tracer.extract config c = some ctx) : Step config performs s (s.hold p ctx)
  | receive {s : System π ι} {p : π} {ctx : SpanContext} {c : Carrier}
      (hctx : Tracer.extract config c = some ctx) :
      Step config performs s { s.hold p ctx with foreign := ctx :: s.foreign }
  -- `FinishWithOptions` returns at once if the span is finished already.
  | finish {s : System π ι} {j : ι} {i : ℕ} {span : Span π} (finishTimeSteady : ℤ)
      (logRecords : List LogRecord) (hthread : s.thread j = .idle)
      (hspan : s.spans[i]? = some span) (hfinished : ¬ span.isFinished = true) :
      Step config performs s { s with
        spans := s.spans.set i (span.finish finishTimeSteady logRecords)
        thread := Function.update s.thread j (.finished i) }
  -- `reportSpan`
  | count {s : System π ι} {j : ι} {i : ℕ} {span : Span π} (hthread : s.thread j = .finished i)
      (hspan : s.spans[i]? = some span) :
      Step config performs s { s with
        metrics := Function.update s.metrics span.tracer { s.metrics span.tracer with
          spansFinished := (s.metrics span.tracer).spansFinished + 1 }
        thread := Function.update s.thread j (.counted i) }
  | check {s : System π ι} {j : ι} {i : ℕ} {span : Span π} (hthread : s.thread j = .counted i)
      (hspan : s.spans[i]? = some span) :
      Step config performs s { s with
        thread := Function.update s.thread j
          (if span.context.isSampled then .sampled i else .idle) }
  | report {s : System π ι} {j : ι} {i : ℕ} {span : Span π} (hthread : s.thread j = .sampled i)
      (hspan : s.spans[i]? = some span) :
      Step config performs s { s with
        thread := Function.update s.thread j .idle
        reported := s.reported ++ [(i, span)] }

/-- The states that a system may come to. -/
def Reachable (config : Config) (performs : Span.Operation → Prop) : System π ι → Prop :=
  Relation.ReflTransGen (Step config performs) {}

/-- What holds at the start and is kept by every step holds always. -/
lemma Reachable.invariant {I : System π ι → Prop} (hrun : Reachable config performs s) (h : I {})
    (hstep : ∀ s t, I s → Step config performs s t → I t) : I s := by
  induction hrun with
  | refl => exact h
  | tail _ hlast ih => exact hstep _ _ ih hlast

/-! ### What becomes of the spans -/

/-- The applications never set a sampling priority. -/
def KeepsFlags (performs : Span.Operation → Prop) : Prop := ∀ op, performs op → ¬ op.SetsPriority

/-- A span that has become another one, by one step or by many. -/
structure Becomes (keeps : Prop) (span span' : Span π) : Prop where
  evolves : Span.Evolves span span'
  flags (h : keeps) : span'.context.flags = span.context.flags

omit [DecidableEq π] in
lemma Becomes.refl {keeps : Prop} (span : Span π) : Becomes keeps span span :=
  ⟨Span.Evolves.refl span, fun _ => rfl⟩

omit [DecidableEq π] [DecidableEq ι] in
lemma becomes_of_set {keeps : Prop} {i k : ℕ} {span span' other : Span π}
    (hspan : s.spans[i]? = some span) (hbecomes : Becomes keeps span span')
    (hother : s.spans[k]? = some other) :
    ∃ other', (s.spans.set i span')[k]? = some other' ∧ Becomes keeps other other' := by
  by_cases hik : i = k
  · subst hik
    obtain rfl : span = other := Option.some.inj (hspan.symm.trans hother)
    obtain ⟨hlt, -⟩ := List.getElem?_eq_some_iff.mp hspan
    exact ⟨span', List.getElem?_set_self hlt, hbecomes⟩
  · exact ⟨other, by rw [List.getElem?_set_ne hik, hother], .refl other⟩

/-- No span gets lost, and each keeps its number. -/
lemma Step.becomes (h : Step config performs s t) {k : ℕ} {span : Span π}
    (hspan : s.spans[k]? = some span) :
    ∃ span', t.spans[k]? = some span' ∧ Becomes (KeepsFlags performs) span span' := by
  cases h with
  | startReturn =>
    obtain ⟨hlt, -⟩ := List.getElem?_eq_some_iff.mp hspan
    exact ⟨span, by rw [List.getElem?_append_left hlt, hspan], .refl span⟩
  | perform hop hspan' =>
    exact becomes_of_set hspan'
      ⟨Span.Evolves.perform _ _, fun h => Span.flags_perform (h _ hop)⟩ hspan
  | finish _ _ hthread hspan' hfinished =>
    exact becomes_of_set hspan' ⟨Span.Evolves.finish _ _ hfinished, fun _ => rfl⟩ hspan
  | start | increment | context | inject | extract | receive | count | check | report =>
    exact ⟨span, hspan, .refl span⟩

/-! ### Where the spans come from -/

/-- The context stands for a span, or for one that a context stands for. -/
structure StandsFor (keeps : Prop) (ctx source : SpanContext) : Prop where
  traceID : ctx.traceID = source.traceID
  spanID : ctx.spanID = source.spanID
  flags (h : keeps) : ctx.flags = source.flags

/-- A valid context stands for one of the spans, or for one that is known from elsewhere. -/
def Backed (keeps : Prop) (s : System π ι) (ctx : SpanContext) : Prop :=
  ctx.isValid = true →
    (∃ (i : ℕ) (span : Span π), s.spans[i]? = some span ∧ StandsFor keeps ctx span.context) ∨
      ∃ source ∈ s.foreign, StandsFor keeps ctx source

/-- The context of a span whose parent has the context `parent`. -/
structure ChildOf (keeps : Prop) (ctx parent : SpanContext) : Prop where
  traceID : ctx.traceID = parent.traceID
  parentID : ctx.parentID = parent.spanID
  flags (h : keeps) : ctx.flags = parent.flags

/-- The span with the number `i` starts a trace, or has a parent. -/
def Descends (keeps : Prop) (s : System π ι) (i : ℕ) (ctx : SpanContext) : Prop :=
  ctx.parentID = 0 ∨
    (∃ (j : ℕ) (parent : Span π), j < i ∧ s.spans[j]? = some parent ∧
      ChildOf keeps ctx parent.context) ∨
      ∃ source ∈ s.foreign, ChildOf keeps ctx source

/-- What holds of the spans, returned or not, and of the contexts that processes hold or send. -/
structure Lineage (config : Config) (keeps : Prop) (s : System π ι) : Prop where
  spans (i : ℕ) (span : Span π) (hspan : s.spans[i]? = some span) :
    Descends keeps s i span.context
  starting (j : ι) (pc : Tracer.StartPc) (new : Tracer.NewSpan π)
    (hj : s.thread j = .starting pc new) : Descends keeps s s.spans.length new.span.context
  contexts (p : π) (ctx : SpanContext) (hctx : ctx ∈ s.contexts p) : Backed keeps s ctx
  carriers (c : Carrier) (hc : c ∈ s.carriers) :
    ∃ ctx, Backed keeps s ctx ∧ Tracer.Injects config ctx c

/-- The spans of `s` are there in `t`, and nothing that is known from elsewhere is forgotten. -/
structure Extends (keeps : Prop) (s t : System π ι) : Prop where
  spans (i : ℕ) (span : Span π) (hspan : s.spans[i]? = some span) :
    ∃ span', t.spans[i]? = some span' ∧ Becomes keeps span span'
  foreign (ctx : SpanContext) (hctx : ctx ∈ s.foreign) : ctx ∈ t.foreign

section

omit [DecidableEq π] [DecidableEq ι]

variable {keeps : Prop} {ctx : SpanContext} {i : ℕ}

lemma Backed.mono (hextends : Extends keeps s t) (h : Backed keeps s ctx) :
    Backed keeps t ctx := by
  intro hvalid
  rcases h hvalid with ⟨i, span, hspan, hstands⟩ | ⟨source, hsource, hstands⟩
  · obtain ⟨span', hspan', hbecomes⟩ := hextends.spans i span hspan
    refine .inl ⟨i, span', hspan', ?_, ?_, fun h => ?_⟩
    · rw [hbecomes.evolves.traceID, hstands.traceID]
    · rw [hbecomes.evolves.spanID, hstands.spanID]
    · rw [hbecomes.flags h, hstands.flags h]
  · exact .inr ⟨source, hextends.foreign source hsource, hstands⟩

/-- What is valid and like a context that is backed is backed. -/
lemma Backed.of_alike {ctx' : SpanContext} (h : Backed keeps s ctx)
    (halike : ctx'.isValid = true → SpanContext.Alike ctx ctx') : Backed keeps s ctx' := by
  intro hvalid
  obtain ⟨htraceID, hspanID, hflags⟩ := halike hvalid
  have hsame : ∀ {source}, StandsFor keeps ctx source → StandsFor keeps ctx' source :=
    fun hstands => ⟨htraceID.trans hstands.traceID, hspanID.trans hstands.spanID,
      fun h => hflags.trans (hstands.flags h)⟩
  rw [SpanContext.isValid, htraceID, hspanID, ← SpanContext.isValid] at hvalid
  rcases h hvalid with ⟨i, span, hspan, hstands⟩ | ⟨source, hsource, hstands⟩
  · exact .inl ⟨i, span, hspan, hsame hstands⟩
  · exact .inr ⟨source, hsource, hsame hstands⟩

lemma Extends.length_le (hextends : Extends keeps s t) : s.spans.length ≤ t.spans.length := by
  by_contra! hlt
  obtain ⟨_, hspan, -⟩ := hextends.spans _ _ (List.getElem?_eq_getElem hlt)
  exact lt_irrefl _ (List.getElem?_eq_some_iff.mp hspan).1

lemma Descends.mono {k : ℕ} (hextends : Extends keeps s t) (hik : i ≤ k)
    (h : Descends keeps s i ctx) : Descends keeps t k ctx := by
  rcases h with hroot | ⟨j, parent, hlt, hparent, hchild⟩ | ⟨source, hsource, hchild⟩
  · exact .inl hroot
  · obtain ⟨parent', hparent', hbecomes⟩ := hextends.spans j parent hparent
    refine .inr (.inl ⟨j, parent', hlt.trans_le hik, hparent', ?_, ?_, fun h => ?_⟩)
    · rw [hbecomes.evolves.traceID, hchild.traceID]
    · rw [hbecomes.evolves.spanID, hchild.parentID]
    · rw [hbecomes.flags h, hchild.flags h]
  · exact .inr (.inr ⟨source, hextends.foreign source hsource, hchild⟩)

/-- A span that becomes another one has the parent that it had. -/
lemma Descends.congr {span span' : Span π} (hbecomes : Becomes keeps span span')
    (h : Descends keeps s i span.context) : Descends keeps s i span'.context := by
  rcases h with hroot | ⟨j, parent, hlt, hparent, hchild⟩ | ⟨source, hsource, hchild⟩
  · exact .inl (hbecomes.evolves.parentID.trans hroot)
  all_goals
    have hchild' : ChildOf keeps span'.context _ :=
      ⟨hbecomes.evolves.traceID.trans hchild.traceID,
        hbecomes.evolves.parentID.trans hchild.parentID,
        fun h => (hbecomes.flags h).trans (hchild.flags h)⟩
  · exact .inr (.inl ⟨j, parent, hlt, hparent, hchild'⟩)
  · exact .inr (.inr ⟨source, hsource, hchild'⟩)

/-- What is new has to be looked at, and what was there before stays as it was. -/
lemma Lineage.mono (h : Lineage config keeps s) (hextends : Extends keeps s t)
    (hspans : ∀ i span, t.spans[i]? = some span → i < s.spans.length ∨
      Descends keeps t i span.context)
    (hstarting : ∀ j pc new, t.thread j = .starting pc new →
      (∃ pc', s.thread j = .starting pc' new) ∨ Descends keeps t t.spans.length new.span.context)
    (hcontexts : ∀ p, ∀ ctx ∈ t.contexts p, ctx ∈ s.contexts p ∨ Backed keeps t ctx)
    (hcarriers : ∀ c ∈ t.carriers, c ∈ s.carriers ∨
      ∃ ctx, Backed keeps t ctx ∧ Tracer.Injects config ctx c) : Lineage config keeps t where
  spans i span' hspan' := by
    rcases hspans i span' hspan' with hlt | hnew
    · have hspan := List.getElem?_eq_getElem hlt
      obtain ⟨span'', hspan'', hbecomes⟩ := hextends.spans i _ hspan
      obtain rfl : span' = span'' := Option.some.inj (hspan'.symm.trans hspan'')
      exact ((h.spans i _ hspan).mono hextends le_rfl).congr hbecomes
    · exact hnew
  starting j pc new hj := by
    rcases hstarting j pc new hj with ⟨pc', hold⟩ | hnew
    · exact (h.starting j pc' new hold).mono hextends hextends.length_le
    · exact hnew
  contexts p ctx hctx := by
    rcases hcontexts p ctx hctx with hold | hnew
    · exact (h.contexts p ctx hold).mono hextends
    · exact hnew
  carriers c hc := by
    rcases hcarriers c hc with hold | hnew
    · obtain ⟨ctx, hbacked, hinjects⟩ := h.carriers c hold
      exact ⟨ctx, hbacked.mono hextends, hinjects⟩
    · exact hnew

/-- A new span starts a trace, or continues that of a context its application has got. -/
lemma descends_of_start {p : π} {gen128Bit isNew : Bool} {env : Tracer.Environment}
    {operationName : List UInt8} {options : Tracer.StartSpanOptions} {span : Span π}
    (hbacked : ∀ ref ∈ options.references, ∀ ctx, ref.2 = some ctx →
      ref.1 = .selfRef ∨ Backed keeps s ctx)
    (hstart : Tracer.startSpanWithOptions p gen128Bit env operationName options =
      some (span, isNew)) : Descends keeps s s.spans.length span.context := by
  rcases (Tracer.started hstart).continues_or_root with
    ⟨ref, hmem, htype, hvalid, hcontext, -⟩ | ⟨hroot, -⟩
  · obtain hself | hparent := hbacked (ref.type, some ref.spanContext) hmem ref.spanContext rfl
    · exact absurd hself htype
    · rw [hcontext]
      rcases hparent hvalid with ⟨j, parent, hj, hstands⟩ | ⟨source, hsource, hstands⟩
      · obtain ⟨hlt, -⟩ := List.getElem?_eq_some_iff.mp hj
        exact .inr (.inl ⟨j, parent, hlt, hj, hstands.traceID, hstands.spanID, hstands.flags⟩)
      · exact .inr (.inr ⟨source, hsource, hstands.traceID, hstands.spanID, hstands.flags⟩)
  · exact .inl hroot

end

lemma Step.extends (h : Step config performs s t) : Extends (KeepsFlags performs) s t where
  spans i span hspan := h.becomes hspan
  foreign ctx hctx := by
    cases h with
    | receive => exact List.mem_cons_of_mem _ hctx
    | start | increment | startReturn | context | perform | inject | extract | finish | count
    | check | report => exact hctx

omit [DecidableEq ι] in
lemma mem_hold {p q : π} {ctx ctx' : SpanContext} (h : ctx' ∈ (s.hold p ctx).contexts q) :
    ctx' = ctx ∨ ctx' ∈ s.contexts q := by
  dsimp only [System.hold] at h
  by_cases hq : q = p
  · subst hq
    rw [Function.update_self] at h
    exact List.mem_cons.mp h
  · rw [Function.update_of_ne hq] at h
    exact .inr h

omit [DecidableEq ι] in
/-- A context that the application of a tracer gets. -/
lemma Lineage.hold {keeps : Prop} {p : π} {ctx : SpanContext} (h : Lineage config keeps s)
    (hctx : Backed keeps s ctx) : Lineage config keeps (s.hold p ctx) := by
  refine h.mono ⟨fun i span hspan => ⟨span, hspan, .refl span⟩, fun ctx hctx => hctx⟩
    (fun i span hspan => .inl (List.getElem?_eq_some_iff.mp hspan).1)
    (fun j pc new hj => .inl ⟨pc, hj⟩) (fun q ctx' hctx' => ?_) fun c hc => .inl hc
  rcases mem_hold hctx' with rfl | hctx'
  · exact .inr hctx
  · exact .inl hctx'

omit [DecidableEq π] in
/-- A thread that has moved, or another one. -/
lemma thread_update {pc pc' : ThreadPc π} {j k : ι} (h : Function.update s.thread j pc k = pc') :
    (k = j ∧ pc = pc') ∨ (k ≠ j ∧ s.thread k = pc') := by
  by_cases hk : k = j
  · subst hk
    rw [Function.update_self] at h
    exact .inl ⟨rfl, h⟩
  · rw [Function.update_of_ne hk] at h
    exact .inr ⟨hk, h⟩

omit [DecidableEq π] in
/-- A thread that has moved, but not to `startSpanInternal`. -/
lemma starting_of_moved {pc : ThreadPc π} (hpc : ∀ pc' new, pc ≠ .starting pc' new) {j k : ι}
    {pc' : Tracer.StartPc} {new : Tracer.NewSpan π}
    (h : Function.update s.thread j pc k = .starting pc' new) :
    ∃ pc'', s.thread k = .starting pc'' new := by
  rcases thread_update h with ⟨-, hpc'⟩ | ⟨-, hk⟩
  · exact absurd hpc' (hpc _ _)
  · exact ⟨pc', hk⟩

lemma Lineage.step (hsound : config.Sound) (h : Lineage config (KeepsFlags performs) s)
    (hstep : Step config performs s t) : Lineage config (KeepsFlags performs) t := by
  have hextends := hstep.extends
  have hsame : ∀ i span, s.spans[i]? = some span → i < s.spans.length :=
    fun i span hspan => (List.getElem?_eq_some_iff.mp hspan).1
  have hset : ∀ {k i : ℕ} {span span' : Span π}, (s.spans.set k span')[i]? = some span →
      i < s.spans.length := fun hspan => by
    rw [← List.length_set]
    exact (List.getElem?_eq_some_iff.mp hspan).1
  cases hstep with
  | start hthread hheld hstart =>
    refine h.mono hextends (fun i span hspan => .inl (hsame i span hspan)) (fun k pc new hk => ?_)
      (fun p ctx hctx => .inl hctx) fun c hc => .inl hc
    rcases thread_update hk with ⟨-, hpc⟩ | ⟨-, hk⟩
    · -- the new span has the parent that it has been given
      cases hpc
      refine .inr ((descends_of_start (fun ref href ctx hctx => ?_) hstart).mono hextends le_rfl)
      exact (hheld ref href ctx hctx).imp_right (h.contexts _ ctx)
    · exact .inl ⟨pc, hk⟩
  | @increment j pc pc' new hthread hnext =>
    refine h.mono hextends (fun i span hspan => .inl (hsame i span hspan))
      (fun k pc'' new' hk => .inl ?_) (fun p ctx hctx => .inl hctx) fun c hc => .inl hc
    rcases thread_update hk with ⟨rfl, hpc⟩ | ⟨-, hk⟩
    · cases hpc
      exact ⟨pc, hthread⟩
    · exact ⟨pc'', hk⟩
  | startReturn hthread =>
    refine h.mono hextends (fun i span hspan => ?_)
      (fun k pc new hk => .inl (starting_of_moved (by simp) hk)) (fun p ctx hctx => .inl hctx)
      fun c hc => .inl hc
    rcases Nat.lt_or_eq_of_le (Nat.le_of_lt_succ (by
      simpa using (List.getElem?_eq_some_iff.mp hspan).1)) with hlt | rfl
    · exact .inl hlt
    · rw [List.getElem?_concat_length] at hspan
      obtain rfl := Option.some.inj hspan
      exact .inr ((h.starting _ _ _ hthread).mono hextends le_rfl)
  | context hspan => exact h.hold fun _ => .inl ⟨_, _, hspan, rfl, rfl, fun _ => rfl⟩
  | perform hop hspan =>
    exact h.mono hextends (fun i span hspan => .inl (hset hspan)) (fun j pc new hj => .inl ⟨pc, hj⟩)
      (fun p ctx hctx => .inl hctx) fun c hc => .inl hc
  | finish _ _ hthread hspan hfinished =>
    exact h.mono hextends (fun i span hspan => .inl (hset hspan))
      (fun k pc new hk => .inl (starting_of_moved (by simp) hk)) (fun p ctx hctx => .inl hctx)
      fun c hc => .inl hc
  | inject hctx hc =>
    refine h.mono hextends (fun i span hspan => .inl (hsame i span hspan))
      (fun j pc new hj => .inl ⟨pc, hj⟩) (fun p ctx hctx => .inl hctx) fun c hc' => ?_
    rcases List.mem_cons.mp hc' with rfl | hc'
    · exact .inr ⟨_, (h.contexts _ _ hctx).mono hextends, hc⟩
    · exact .inl hc'
  | extract hc hctx =>
    -- what is extracted is like what has been injected
    obtain ⟨sent, hbacked, hinjects⟩ := h.carriers _ hc
    exact h.hold (hbacked.of_alike fun hvalid =>
      Tracer.alike_of_injects hsound hinjects hctx hvalid)
  | @receive p ctx c hctx =>
    have hforeign : Lineage config (KeepsFlags performs) { s with foreign := ctx :: s.foreign } :=
      h.mono ⟨fun i span hspan => ⟨span, hspan, .refl span⟩, fun _ => List.mem_cons_of_mem ctx⟩
        (fun i span hspan => .inl (hsame i span hspan)) (fun j pc new hj => .inl ⟨pc, hj⟩)
        (fun p ctx hctx => .inl hctx) fun c hc => .inl hc
    exact hforeign.hold fun _ => .inr ⟨ctx, List.mem_cons_self, rfl, rfl, fun _ => rfl⟩
  | count | report =>
    exact h.mono hextends (fun i span hspan => .inl (hsame i span hspan))
      (fun k pc new hk => .inl (starting_of_moved (by simp) hk)) (fun p ctx hctx => .inl hctx)
      fun c hc => .inl hc
  | check =>
    refine h.mono hextends (fun i span hspan => .inl (hsame i span hspan))
      (fun k pc new hk => .inl (starting_of_moved ?_ hk)) (fun p ctx hctx => .inl hctx)
      fun c hc => .inl hc
    split_ifs <;> simp

lemma Reachable.lineage (hsound : config.Sound) (hrun : Reachable config performs s) :
    Lineage config (KeepsFlags performs) s := by
  refine hrun.invariant ⟨fun i span hspan => ?_, fun j pc new hj => ?_, fun p ctx hctx => ?_,
    fun c hc => ?_⟩ fun s t hs hstep => hs.step hsound hstep
  · cases hspan
  · cases hj
  · cases hctx
  · cases hc

/-- A thread that starts a span while the others do nothing. -/
lemma Reachable.start (hrun : Reachable config performs s) {j : ι} {p : π} {gen128Bit : Bool}
    {env : Tracer.Environment} {operationName : List UInt8} {options : Tracer.StartSpanOptions}
    {span : Span π} {isNew : Bool} (hthread : s.thread j = .idle)
    (hheld : ∀ ref ∈ options.references, ∀ ctx, ref.2 = some ctx →
      ref.1 = .selfRef ∨ ctx ∈ s.contexts p)
    (hstart : Tracer.startSpanWithOptions p gen128Bit env operationName options =
      some (span, isNew)) :
    Reachable config performs { s with
      spans := s.spans ++ [span]
      metrics := Function.update s.metrics span.tracer
        ((((s.metrics span.tracer).increment span isNew .created).increment span isNew
          .counted).increment span isNew .sampled) } := by
  have hidle : Function.update s.thread j .idle = s.thread := by
    rw [← hthread, Function.update_eq_self]
  have h₁ := hrun.tail (.start hthread hheld hstart)
  have h₂ := h₁.tail (.increment (Function.update_self j _ _) rfl)
  have h₃ := h₂.tail (.increment (Function.update_self j _ _) rfl)
  have h₄ := h₃.tail (.increment (Function.update_self j _ _) rfl)
  have h₅ := h₄.tail (.startReturn (Function.update_self j _ _))
  simp only [Function.update_idem, Function.update_self, hidle] at h₅
  exact h₅

/-- The span with the number `j` is the parent of the one with the number `i`. -/
def Parent (s : System π ι) (i j : ℕ) : Prop :=
  j < i ∧ ∃ child parent : Span π, s.spans[i]? = some child ∧ s.spans[j]? = some parent ∧
    child.context.traceID = parent.context.traceID ∧
    child.context.parentID = parent.context.spanID

/-- In a system of tracers that have one configuration, on hosts of one kind, every span has its
place in a tree: the spans above it, all of them started before and in the same trace, lead to a
root, or to a span whose parent is known from elsewhere. If nobody sets a priority, its flags are
those of the span at the top. -/
theorem exists_ancestor (hsound : config.Sound) (hrun : Reachable config performs s) {i : ℕ}
    {span : Span π} (hspan : s.spans[i]? = some span) :
    ∃ (j : ℕ) (ancestor : Span π), Relation.ReflTransGen s.Parent i j ∧
      s.spans[j]? = some ancestor ∧ ancestor.context.traceID = span.context.traceID ∧
      (KeepsFlags performs → ancestor.context.flags = span.context.flags) ∧
      (ancestor.context.parentID = 0 ∨ ∃ source ∈ s.foreign,
        source.traceID = span.context.traceID ∧ source.spanID = ancestor.context.parentID) := by
  have hlineage := hrun.lineage hsound
  induction i using Nat.strong_induction_on generalizing span with
  | _ i ih =>
    rcases hlineage.spans i span hspan with hroot | ⟨j, parent, hlt, hparent, hchild⟩ |
      ⟨source, hsource, hchild⟩
    · exact ⟨i, span, .refl, hspan, rfl, fun _ => rfl, .inl hroot⟩
    · obtain ⟨k, ancestor, hpath, hancestor, htraceID, hflags, horigin⟩ := ih j hlt hparent
      have hstep : s.Parent i j :=
        ⟨hlt, span, parent, hspan, hparent, hchild.traceID, hchild.parentID⟩
      refine ⟨k, ancestor, .head hstep hpath, hancestor, htraceID.trans hchild.traceID.symm,
        fun h => (hflags h).trans (hchild.flags h).symm, ?_⟩
      rwa [hchild.traceID]
    · exact ⟨i, span, .refl, hspan, rfl, fun _ => rfl,
        .inr ⟨source, hsource, hchild.traceID.symm, hchild.parentID.symm⟩⟩

theorem exists_ancestor_child :
    ∃ (s : System Bool Unit) (child : Span Bool), s.spans[1]? = some child ∧
      child.tracer = true ∧ child.context.parentID = 1 ∧ s.foreign = [] ∧
      ∃ (j : ℕ) (ancestor : Span Bool), Relation.ReflTransGen s.Parent 1 j ∧
        s.spans[j]? = some ancestor ∧ ancestor.context.traceID = child.context.traceID ∧
        (KeepsFlags (fun _ => False) → ancestor.context.flags = child.context.flags) ∧
        (ancestor.context.parentID = 0 ∨ ∃ source ∈ s.foreign,
          source.traceID = child.context.traceID ∧
            source.spanID = ancestor.context.parentID) := by
  let config : Config := ⟨.jaeger, default, .little⟩
  let ctx : SpanContext := { traceID := ⟨0, 1⟩, spanID := 1, flags := 1 }
  have hroot : Tracer.startSpanWithOptions false false default [] {} =
      some (⟨false, ctx, [], 1, 1, 0, [], [], []⟩, true) := rfl
  have hchild : Tracer.startSpanWithOptions true false default []
      { references := [(.childOfRef, some ctx)] } =
        some (⟨true, { ctx with parentID := 1 }, [], 1, 1, 0, [], [], [⟨ctx, .childOfRef⟩]⟩,
          false) := rfl
  have hinjects : Tracer.Injects config ctx
      (.textMap (JaegerPropagator.inject (.textMap default) ctx [])) :=
    ⟨[], ⟨List.nodup_nil, fun k v => by simp [ctx]⟩,
      JaegerPropagator.carries_inject (Propagator.normalized_textMap default)⟩
  have hheld : ∀ ref ∈ [(SpanReferenceType.childOfRef, some ctx)], ∀ c, ref.2 = some c →
      ref.1 = .selfRef ∨ c ∈ [ctx] := by
    intro ref href c hc
    obtain rfl := List.mem_singleton.mp href
    obtain rfl := Option.some.inj hc
    exact .inr List.mem_cons_self
  have h₀ : Reachable config (fun _ => False) ({} : System Bool Unit) := .refl
  have h₁ := h₀.start (j := ()) rfl (by simp) hroot
  have h₂ := h₁.tail (.context (i := 0) rfl)
  have h₃ := h₂.tail (.inject (p := false) List.mem_cons_self hinjects)
  have h₄ := h₃.tail (.extract (p := true) List.mem_cons_self rfl)
  have h₅ := Reachable.start h₄ (j := ()) rfl hheld hchild
  exact ⟨_, _, rfl, rfl, rfl, rfl, exists_ancestor (Config.sound_default _ _) h₅ rfl⟩

end System

end Tracing
