import CppArchitecture.Tracing.Propagator
import CppArchitecture.Tracing.Span

/-!
# Starting a span

A tracer looks for a parent among the references of a new span. The new span continues the trace of
a parent whose context is valid; any other span starts a trace of its own, for which the sampler
decides whether it is recorded.
-/

namespace Tracing

open Core

namespace Tracer

/-- An `opentracing::SpanReference`, without a context if it has one that is none of Jaeger's. -/
abbrev OpenTracingRef := SpanReferenceType × Option SpanContext

structure AnalyzedReferences where
  parent : Option SpanContext := none
  self : Option SpanContext := none
  references : List Reference := []
  deriving DecidableEq

/-- The variables of the loop of `analyzeReferences`. -/
structure Analysis where
  self : Option SpanContext := none
  references : List Reference := []
  hasParent : Bool := false
  parent : Option SpanContext := none

/-- The body of the loop. -/
def analyzeReference (s : Analysis) (ref : OpenTracingRef) : Analysis :=
  match ref.2 with
  | none => s
  | some ctx =>
    if ¬ ctx.isValid ∧ ¬ ctx.isDebugIDContainerOnly ∧ ctx.baggage = ∅ then s
    else if ref.1 = .selfRef then { s with self := some ctx }
    else
      let references := s.references ++ [⟨ctx, ref.1⟩]
      if s.hasParent then { s with references := references }
      else
        { s with
          references := references
          parent := some ctx
          hasParent := ref.1 = .childOfRef }

/-- What comes after the loop. -/
def Analysis.result (s : Analysis) : AnalyzedReferences where
  -- A reference that is no `ChildOfRef` is used in place of one.
  parent := if s.hasParent then s.parent else s.parent.filter SpanContext.isValid
  self := s.self
  references := s.references

def analyzeReferences (references : List OpenTracingRef) : AnalyzedReferences :=
  (references.foldl analyzeReference {}).result

/-- A number that `randomID` returns, which asks the generator again until it is not zero. -/
abbrev RandomID := { value : BitVec 64 // value ≠ 0 }

structure SamplingStatus where
  isSampled : Bool
  tags : List Tag

/-- What a tracer finds when it starts a span: the times, the numbers that `randomID` returns one
after the other, and the decision of the sampler. -/
structure Environment where
  systemNow : ℤ
  steadyNow : ℤ
  convertToSystem : ℤ → ℤ
  convertToSteady : ℤ → ℤ
  randomID : RandomID
  nextRandomID : RandomID
  isSampled : TraceID → List UInt8 → SamplingStatus

/-- A tracer whose sampler takes every trace. -/
instance : Inhabited Environment where
  default := {
    systemNow := 1
    steadyNow := 1
    convertToSystem := id
    convertToSteady := id
    randomID := ⟨1, by decide⟩
    nextRandomID := ⟨2, by decide⟩
    isSampled := fun _ _ => ⟨true, []⟩ }

structure StartSpanOptions where
  startSystemTimestamp : ℤ := 0
  startSteadyTimestamp : ℤ := 0
  references : List OpenTracingRef := []
  tags : List Tag := []

def determineStartTimes (env : Environment) (options : StartSpanOptions) : ℤ × ℤ :=
  if options.startSystemTimestamp = 0 ∧ options.startSteadyTimestamp = 0 then
    (env.systemNow, env.steadyNow)
  else if options.startSystemTimestamp = 0 then
    (env.convertToSystem options.startSteadyTimestamp, options.startSteadyTimestamp)
  else if options.startSteadyTimestamp = 0 then
    (options.startSystemTimestamp, env.convertToSteady options.startSystemTimestamp)
  else (options.startSystemTimestamp, options.startSteadyTimestamp)

/-- The context of a span that starts a trace, and the tags of the sampler. -/
def newTrace (gen128Bit : Bool) (env : Environment) (operationName : List UInt8)
    (parent self : Option SpanContext) : SpanContext × List Tag :=
  let traceID : TraceID :=
    match self with
    | some self => self.traceID
    | none => if gen128Bit then ⟨env.randomID, env.nextRandomID⟩ else ⟨0, env.randomID⟩
  let spanID :=
    match self with
    | some self => self.spanID
    | none => traceID.low
  let (flags, samplerTags) : BitVec 8 × List Tag :=
    match parent.filter SpanContext.isDebugIDContainerOnly with
    | some parent =>
      (SpanContext.kSampled ||| SpanContext.kDebug,
        [⟨HeadersConfig.kJaegerDebugHeader, .string parent.debugID⟩])
    | none =>
      let samplingStatus := env.isSampled traceID operationName
      if samplingStatus.isSampled then (SpanContext.kSampled, samplingStatus.tags) else (0, [])
  ({ traceID := traceID, spanID := spanID, flags := flags }, samplerTags)

/-- The context of a span that continues the trace of its parent. -/
def continueTrace (env : Environment) (parent : SpanContext) : SpanContext where
  traceID := parent.traceID
  spanID := env.randomID
  parentID := parent.spanID
  flags := parent.flags

/-- The context of a new span, the tags of the sampler, and whether the span starts a trace. -/
def startContext (gen128Bit : Bool) (env : Environment) (operationName : List UInt8)
    (parent self : Option SpanContext) : SpanContext × List Tag × Bool :=
  let (ctx, samplerTags, isNew) :=
    match parent.filter SpanContext.isValid with
    | none =>
      let (ctx, samplerTags) := newTrace gen128Bit env operationName parent self
      (ctx, samplerTags, true)
    | some parent => (continueTrace env parent, [], false)
  let baggage := (parent.map SpanContext.baggage).getD ∅
  (if baggage ≠ ∅ then ctx.withBaggage baggage else ctx, samplerTags, isNew)

variable {π : Type}

/-- The span, and whether it starts a trace; or nothing, if an exception has been caught. -/
def startSpanWithOptions (tracer : π) (gen128Bit : Bool) (env : Environment)
    (operationName : List UInt8) (options : StartSpanOptions) : Option (Span π × Bool) :=
  let result := analyzeReferences options.references
  -- Self and references are exclusive.
  if result.self ≠ none ∧ (result.parent ≠ none ∨ result.references ≠ []) then none
  else
    let (ctx, samplerTags, isNew) :=
      startContext gen128Bit env operationName result.parent result.self
    let (startTimeSystem, startTimeSteady) := determineStartTimes env options
    some ({
      tracer := tracer
      context := ctx
      operationName := operationName
      startTimeSystem := startTimeSystem
      startTimeSteady := startTimeSteady
      tags := options.tags ++ samplerTags
      references := result.references }, isNew)

structure Metrics where
  tracesStartedSampled : ℕ := 0
  tracesStartedNotSampled : ℕ := 0
  spansStarted : ℕ := 0
  spansFinished : ℕ := 0
  spansSampled : ℕ := 0
  spansNotSampled : ℕ := 0
  deriving DecidableEq, Repr

/-- Where `startSpanInternal` is with a span that it has made. -/
inductive StartPc where
  /-- It is about to count the span. -/
  | created
  /-- It is about to count whether the span is sampled. -/
  | counted
  /-- It is about to count the trace, if the span starts one. -/
  | sampled
  /-- It is about to return the span. -/
  | traced
  deriving DecidableEq, Repr

def StartPc.next : StartPc → Option StartPc
  | .created => some .counted
  | .counted => some .sampled
  | .sampled => some .traced
  | .traced => none

/-- The increment that `startSpanInternal` makes at that place. -/
def Metrics.increment (metrics : Metrics) (span : Span π) (isNew : Bool) : StartPc → Metrics
  | .created => { metrics with spansStarted := metrics.spansStarted + 1 }
  | .counted =>
    if span.context.isSampled then { metrics with spansSampled := metrics.spansSampled + 1 }
    else { metrics with spansNotSampled := metrics.spansNotSampled + 1 }
  | .sampled =>
    if ¬ isNew then metrics
    else if span.context.isSampled then
      { metrics with tracesStartedSampled := metrics.tracesStartedSampled + 1 }
    else { metrics with tracesStartedNotSampled := metrics.tracesStartedNotSampled + 1 }
  | .traced => metrics

section

variable (metrics : Metrics) (span : Span π) (isNew : Bool) (pc : StartPc)

lemma Metrics.spansStarted_increment : (metrics.increment span isNew pc).spansStarted =
    metrics.spansStarted + (decide (pc = .created)).toNat := by
  cases pc <;> simp only [Metrics.increment]
  case created => rfl
  case traced => rfl
  all_goals split_ifs <;> rfl

lemma Metrics.spansSampled_increment :
    (metrics.increment span isNew pc).spansSampled +
        (metrics.increment span isNew pc).spansNotSampled =
      metrics.spansSampled + metrics.spansNotSampled + (decide (pc = .counted)).toNat := by
  cases pc <;> simp only [Metrics.increment]
  case created => rfl
  case counted =>
    split_ifs
    · exact add_right_comm _ _ _
    · rfl
  case sampled => split_ifs <;> rfl
  case traced => rfl

lemma Metrics.tracesStarted_increment :
    (metrics.increment span isNew pc).tracesStartedSampled +
        (metrics.increment span isNew pc).tracesStartedNotSampled =
      metrics.tracesStartedSampled + metrics.tracesStartedNotSampled +
        (decide (pc = .sampled) && isNew).toNat := by
  cases pc <;> simp only [Metrics.increment]
  case created => rfl
  case counted => split_ifs <;> rfl
  case sampled =>
    split_ifs with hisNew hsampled
    · rw [hisNew]
      exact add_right_comm _ _ _
    · rw [hisNew]
      rfl
    · rw [Bool.not_eq_true] at hisNew
      rw [hisNew]
      rfl
  case traced => rfl

lemma Metrics.spansFinished_increment :
    (metrics.increment span isNew pc).spansFinished = metrics.spansFinished := by
  cases pc <;> simp only [Metrics.increment]
  all_goals split_ifs <;> rfl

end

/-! ### The parent -/

/-- The reference that is kept of one that is given: its context has to have some content. -/
def accept (ref : OpenTracingRef) : Option Reference :=
  match ref.2 with
  | none => none
  | some ctx =>
    if (¬ ctx.isValid ∧ ¬ ctx.isDebugIDContainerOnly ∧ ctx.baggage = ∅) ∨ ref.1 = .selfRef then none
    else some ⟨ctx, ref.1⟩

/-- The first of the references that is a `ChildOfRef`; if there is none, the last of them all. -/
def chosen (references : List Reference) : Option Reference :=
  (references.find? fun ref => ref.type = .childOfRef).or references.getLast?

variable {s : Analysis} {ref : OpenTracingRef} {r : Reference} {refs : List OpenTracingRef}
  {references : List Reference}

lemma chosen_append : chosen (references ++ [r]) =
    if references.any (fun ref => ref.type = .childOfRef) then chosen references else some r := by
  rw [chosen, chosen, List.find?_append, List.getLast?_append]
  split_ifs with hany
  · obtain ⟨first, hfirst⟩ := Option.isSome_iff_exists.mp
      (List.find?_isSome.mpr (List.any_eq_true.mp hany))
    rw [hfirst]
    rfl
  · have hnone : references.find? (fun ref => ref.type = .childOfRef) = none := by
      rw [List.find?_eq_none]
      intro ref hmem hchild
      exact hany (List.any_eq_true.mpr ⟨ref, hmem, hchild⟩)
    rw [hnone, Option.none_or]
    by_cases hchild : r.type = .childOfRef
    · simp [hchild]
    · simp [hchild]

lemma accept_eq_some_iff :
    accept ref = some r ↔ ref = (r.type, some r.spanContext) ∧ r.type ≠ .selfRef ∧
      ¬ (¬ r.spanContext.isValid = true ∧ ¬ r.spanContext.isDebugIDContainerOnly = true ∧
        r.spanContext.baggage = ∅) := by
  obtain ⟨type, ctx⟩ := ref
  obtain ⟨ctx', type'⟩ := r
  cases ctx with
  | none => simp [accept]
  | some ctx =>
    rw [accept]
    dsimp only
    split_ifs with hskip
    · refine iff_of_false nofun ?_
      rintro ⟨heq, htype, hcontent⟩
      cases heq
      exact hskip.elim hcontent htype
    · obtain ⟨hcontent, htype⟩ := not_or.mp hskip
      constructor
      · intro h
        cases h
        exact ⟨rfl, htype, hcontent⟩
      · rintro ⟨heq, -, -⟩
        cases heq
        rfl

lemma analyzeReference_of_none (h : accept ref = none) :
    ∃ self, analyzeReference s ref = { s with self := self } := by
  obtain ⟨type, ctx⟩ := ref
  cases ctx with
  | none => exact ⟨s.self, rfl⟩
  | some ctx =>
    by_cases hempty : ¬ ctx.isValid = true ∧ ¬ ctx.isDebugIDContainerOnly = true ∧ ctx.baggage = ∅
    · exact ⟨s.self, if_pos hempty⟩
    · by_cases hself : type = .selfRef
      · exact ⟨some ctx, (if_neg hempty).trans (if_pos hself)⟩
      · have haccept : accept (type, some ctx) = some ⟨ctx, type⟩ :=
          if_neg (not_or.mpr ⟨hempty, hself⟩)
        rw [haccept] at h
        cases h

lemma analyzeReference_of_some (h : accept ref = some r) : analyzeReference s ref =
    { s with
      references := s.references ++ [r]
      hasParent := s.hasParent || r.type = .childOfRef
      parent := if s.hasParent then s.parent else some r.spanContext } := by
  obtain ⟨rfl, htype, hcontent⟩ := accept_eq_some_iff.mp h
  rw [analyzeReference]
  dsimp only
  rw [if_neg hcontent, if_neg htype]
  split_ifs with hparent
  · simp [hparent]
  · simp [hparent]

/-- What the loop has found in the references before. -/
structure Analyzed (accepted : List Reference) (s : Analysis) : Prop where
  references : s.references = accepted
  hasParent : s.hasParent = accepted.any fun ref => ref.type = .childOfRef
  parent : s.parent = (chosen accepted).map Reference.spanContext

lemma analyzed (refs : List OpenTracingRef) :
    Analyzed (refs.filterMap accept) (refs.foldl analyzeReference {}) := by
  induction refs using List.reverseRecOn with
  | nil => exact ⟨rfl, rfl, rfl⟩
  | append_singleton refs ref ih =>
    rw [List.filterMap_append, List.foldl_append, List.foldl_cons, List.foldl_nil]
    cases haccept : accept ref with
    | none =>
      obtain ⟨self, hself⟩ := analyzeReference_of_none (s := refs.foldl analyzeReference {}) haccept
      rw [hself, List.filterMap_cons_none haccept, List.filterMap_nil, List.append_nil]
      exact ⟨ih.references, ih.hasParent, ih.parent⟩
    | some r =>
      rw [analyzeReference_of_some haccept, List.filterMap_cons_some haccept, List.filterMap_nil]
      refine ⟨by rw [ih.references], ?_, ?_⟩
      · rw [ih.hasParent, List.any_append, List.any_cons, List.any_nil, Bool.or_false]
      · rw [chosen_append, ih.hasParent, ih.parent]
        split_ifs <;> rfl

lemma mem_of_chosen (h : chosen references = some r) : r ∈ references := by
  rcases Option.or_eq_some_iff.mp h with hchild | ⟨-, hlast⟩
  · exact List.mem_of_find?_eq_some hchild
  · exact List.mem_of_getLast? hlast

/-- A `ChildOfRef` is chosen before any other reference. -/
lemma chosen_filter : (chosen references).filter (fun ref => ref.type = .childOfRef) =
    if references.any (fun ref => ref.type = .childOfRef) then chosen references else none := by
  rw [chosen]
  split_ifs with hany
  · obtain ⟨first, hfirst⟩ := Option.isSome_iff_exists.mp
      (List.find?_isSome.mpr (List.any_eq_true.mp hany))
    have htype := List.find?_some hfirst
    rw [hfirst, Option.some_or, Option.filter_some, if_pos htype]
  · have hnone : ∀ ref ∈ references, ¬ decide (ref.type = .childOfRef) = true :=
      fun ref hmem hchild => hany (List.any_eq_true.mpr ⟨ref, hmem, hchild⟩)
    rw [List.find?_eq_none.mpr hnone, Option.none_or, Option.filter_eq_none_iff]
    exact fun ref hlast => hnone ref (List.mem_of_getLast? hlast)

/-- The context of the reference that is chosen, if it is valid. -/
def validParent (references : List Reference) : Option SpanContext :=
  ((chosen references).map Reference.spanContext).filter SpanContext.isValid

/-- The parent of a span that starts a trace all the same. -/
def startingParent (references : List Reference) : Option SpanContext :=
  ((chosen references).filter fun ref => ref.type = .childOfRef).map Reference.spanContext

lemma validParent_eq_some_iff {ctx : SpanContext} : validParent references = some ctx ↔
    ∃ ref, chosen references = some ref ∧ ref.spanContext = ctx ∧ ctx.isValid = true := by
  rw [validParent, Option.filter_eq_some_iff, Option.map_eq_some_iff]
  constructor
  · rintro ⟨⟨ref, href, hctx⟩, hvalid⟩
    exact ⟨ref, href, hctx, hvalid⟩
  · rintro ⟨ref, href, hctx, hvalid⟩
    exact ⟨⟨ref, href, hctx⟩, hvalid⟩

lemma validParent_eq_none_iff : validParent references = none ↔
    ∀ ref, chosen references = some ref → ref.spanContext.isValid = false := by
  simp [validParent]

lemma filter_startingParent (h : validParent references = none) :
    (startingParent references).filter SpanContext.isValid = none := by
  rw [startingParent, Option.filter_eq_none_iff]
  intro ctx hctx
  obtain ⟨ref, href, rfl⟩ := Option.map_eq_some_iff.mp hctx
  rw [validParent_eq_none_iff.mp h ref (Option.filter_eq_some_iff.mp href).1]
  exact Bool.false_ne_true

lemma analyzeReferences_references :
    (analyzeReferences refs).references = refs.filterMap accept :=
  (analyzed refs).references

lemma analyzeReferences_parent : (analyzeReferences refs).parent =
    (validParent (refs.filterMap accept)).or (startingParent (refs.filterMap accept)) := by
  obtain ⟨-, hhasParent, hparent⟩ := analyzed refs
  rw [analyzeReferences, Analysis.result, hhasParent, hparent, validParent, startingParent,
    chosen_filter]
  split_ifs
  · cases chosen (refs.filterMap accept) with
    | none => rfl
    | some ref =>
      rw [Option.map_some, Option.filter_some]
      split_ifs <;> rfl
  · simp

/-! ### The new span -/

variable {gen128Bit isNew : Bool} {env : Environment} {operationName : List UInt8}
  {parent self : Option SpanContext} {ctx : SpanContext} {tracer : π} {options : StartSpanOptions}
  {span : Span π}

lemma withBaggage_of_ne {baggage : StrMap} (h : ctx.baggage = ∅) :
    (if baggage ≠ ∅ then ctx.withBaggage baggage else ctx) = ctx.withBaggage baggage := by
  split_ifs with hbaggage
  · rfl
  · rw [not_not.mp hbaggage, ← h]
    rfl

lemma startContext_of_valid (h : ctx.isValid = true) :
    startContext gen128Bit env operationName (some ctx) self =
      ((continueTrace env ctx).withBaggage ctx.baggage, [], false) := by
  rw [startContext, Option.filter_some_pos h]
  exact congrArg (·, [], false) (withBaggage_of_ne rfl)

/-- The context of a span that starts a trace, with its baggage. -/
def startingContext (gen128Bit : Bool) (env : Environment) (operationName : List UInt8)
    (parent self : Option SpanContext) : SpanContext :=
  (newTrace gen128Bit env operationName parent self).1.withBaggage
    ((parent.map SpanContext.baggage).getD ∅)

lemma startContext_of_not_valid (h : parent.filter SpanContext.isValid = none) :
    startContext gen128Bit env operationName parent self =
      (startingContext gen128Bit env operationName parent self,
        (newTrace gen128Bit env operationName parent self).2, true) := by
  rw [startContext, h]
  exact congrArg (·, (newTrace gen128Bit env operationName parent self).2, true)
    (withBaggage_of_ne rfl)

/-- What a new span has, unless an exception has been caught. -/
structure Started (tracer : π) (gen128Bit : Bool) (env : Environment) (operationName : List UInt8)
    (options : StartSpanOptions) (span : Span π) (isNew : Bool) : Prop where
  tracer : span.tracer = tracer
  duration : span.duration = 0
  references : span.references = options.references.filterMap accept
  context : (span.context, isNew) =
    match validParent span.references with
    | some parent => ((continueTrace env parent).withBaggage parent.baggage, false)
    | none => (startingContext gen128Bit env operationName (startingParent span.references)
        (analyzeReferences options.references).self, true)

lemma started (h : startSpanWithOptions tracer gen128Bit env operationName options =
      some (span, isNew)) : Started tracer gen128Bit env operationName options span isNew := by
  rw [startSpanWithOptions] at h
  dsimp only at h
  split_ifs at h
  obtain ⟨hspan, hisNew⟩ := Prod.mk.inj (Option.some.inj h)
  have hreferences : span.references = options.references.filterMap accept :=
    (congrArg Span.references hspan).symm.trans analyzeReferences_references
  have hcontext := congrArg Span.context hspan
  dsimp only at hcontext
  refine ⟨(congrArg Span.tracer hspan).symm, (congrArg Span.duration hspan).symm, hreferences, ?_⟩
  rw [analyzeReferences_parent, ← hreferences] at hcontext hisNew
  cases hvalid : validParent span.references with
  | some parent =>
    obtain ⟨_, -, -, hctx⟩ := validParent_eq_some_iff.mp hvalid
    rw [hvalid, Option.some_or, startContext_of_valid hctx] at hcontext hisNew
    exact Prod.ext hcontext.symm hisNew.symm
  | none =>
    rw [hvalid, Option.none_or, startContext_of_not_valid (filter_startingParent hvalid)]
      at hcontext hisNew
    exact Prod.ext hcontext.symm hisNew.symm

namespace Started

lemma continues (h : Started tracer gen128Bit env operationName options span isNew)
    (hparent : validParent span.references = some ctx) :
    span.context = (continueTrace env ctx).withBaggage ctx.baggage ∧ isNew = false := by
  have hcontext := h.context
  rw [hparent] at hcontext
  exact Prod.mk.inj hcontext

lemma starts (h : Started tracer gen128Bit env operationName options span isNew)
    (hparent : validParent span.references = none) :
    span.context = startingContext gen128Bit env operationName (startingParent span.references)
      (analyzeReferences options.references).self ∧ isNew = true := by
  have hcontext := h.context
  rw [hparent] at hcontext
  exact Prod.mk.inj hcontext

/-- A span continues the trace of a valid context it has been given, or is the root of a trace. -/
lemma continues_or_root (h : Started tracer gen128Bit env operationName options span isNew) :
    (∃ ref : Reference, (ref.type, some ref.spanContext) ∈ options.references ∧
      ref.type ≠ .selfRef ∧ ref.spanContext.isValid = true ∧
      span.context = (continueTrace env ref.spanContext).withBaggage ref.spanContext.baggage ∧
      isNew = false) ∨ (span.context.parentID = 0 ∧ isNew = true) := by
  cases hparent : validParent span.references with
  | some ctx =>
    obtain ⟨hcontext, hisNew⟩ := h.continues hparent
    obtain ⟨ref, href, rfl, hvalid⟩ := validParent_eq_some_iff.mp hparent
    have hmem := mem_of_chosen href
    rw [h.references] at hmem
    obtain ⟨given, hgiven, haccept⟩ := List.mem_filterMap.mp hmem
    obtain ⟨rfl, htype, -⟩ := accept_eq_some_iff.mp haccept
    exact .inl ⟨ref, hgiven, htype, hvalid, hcontext, hisNew⟩
  | none =>
    obtain ⟨hcontext, hisNew⟩ := h.starts hparent
    refine .inr ⟨?_, hisNew⟩
    rw [hcontext]
    rfl

/-- The root of a trace is known by the number of its parent. -/
lemma isNew_iff (h : Started tracer gen128Bit env operationName options span isNew) :
    isNew = true ↔ span.context.parentID = 0 := by
  rcases h.continues_or_root with ⟨ref, -, -, hvalid, hcontext, hisNew⟩ | ⟨hroot, hisNew⟩
  · refine iff_of_false (by simp [hisNew]) fun hzero => ?_
    have hspanID : ref.spanContext.spanID = 0 := by
      rw [hcontext] at hzero
      exact hzero
    simp [SpanContext.isValid, hspanID] at hvalid
  · exact iff_of_true hisNew hroot

end Started

/-- A span that `startSpanInternal` has made and has not returned, of which nobody else knows. -/
structure NewSpan (π : Type) where
  span : Span π
  isNew : Bool
  duration : span.duration = 0
  isNew_iff : isNew = true ↔ span.context.parentID = 0

def NewSpan.ofStarted (h : startSpanWithOptions tracer gen128Bit env operationName options =
    some (span, isNew)) : NewSpan π :=
  ⟨span, isNew, (started h).duration, (started h).isNew_iff⟩

/-- A new span continues the trace of the reference that is chosen if its context is valid.
Otherwise it starts a trace, whatever the other references are, and only a `ChildOfRef` has a say in
that. -/
theorem startSpanWithOptions_eq_some
    (h : startSpanWithOptions tracer gen128Bit env operationName options = some (span, isNew)) :
    span.references = options.references.filterMap accept ∧
      (∀ ref, chosen span.references = some ref → ref.spanContext.isValid = true →
        span.context = (continueTrace env ref.spanContext).withBaggage ref.spanContext.baggage ∧
          isNew = false) ∧
      ((∀ ref, chosen span.references = some ref → ref.spanContext.isValid = false) →
        span.context = startingContext gen128Bit env operationName
            (startingParent span.references) (analyzeReferences options.references).self ∧
          isNew = true) := by
  have hstarted := started h
  refine ⟨hstarted.references, fun ref href hvalid => ?_, fun hnone => ?_⟩
  · exact hstarted.continues (validParent_eq_some_iff.mpr ⟨ref, href, rfl, hvalid⟩)
  · exact hstarted.starts (validParent_eq_none_iff.mpr hnone)

/-- The last of the references is chosen, and it is not valid. -/
theorem startSpanWithOptions_eq_some_last :
    ∃ span : Span Unit, startSpanWithOptions () false default [] { references := [
        (.followsFromRef, some { traceID := ⟨0, 7⟩, spanID := 7 }),
        (.followsFromRef, some { baggage := Finmap.singleton [97] [98] })] } = some (span, true) ∧
      span.context = startingContext false default [] (startingParent span.references) none := by
  obtain ⟨span, hspan⟩ : ∃ span : Span Unit, startSpanWithOptions () false default []
      { references := [(.followsFromRef, some { traceID := ⟨0, 7⟩, spanID := 7 }),
        (.followsFromRef, some { baggage := Finmap.singleton [97] [98] })] } = some (span, true) :=
    ⟨_, rfl⟩
  obtain ⟨hreferences, -, hstarts⟩ := startSpanWithOptions_eq_some hspan
  refine ⟨span, hspan, (hstarts fun ref href => ?_).1⟩
  rw [hreferences] at href
  cases href
  rfl

end Tracer

end Tracing
