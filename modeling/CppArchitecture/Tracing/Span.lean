import CppArchitecture.Core.Floating
import CppArchitecture.Core.Integers
import CppArchitecture.Tracing.Basic
import Mathlib.Data.Rat.Defs

/-!
# Spans

A span has a name, tags, logs and the context that it travels with. Each of its operations takes the
mutex of the span once, and does its work in one go. Once a span is finished its name and its tags
stay what they are; what it logs, its baggage and its flags do not.
-/

namespace Tracing

open Core

/-! ### Values -/

/-- `opentracing::Value` -/
inductive Value where
  | bool (value : Bool)
  | double (value : Floating ℚ)
  | int64 (value : Int64)
  | uint64 (value : UInt64)
  | string (value : List UInt8)
  | null
  | charPtr (value : List UInt8)
  | values (values : List Value)
  | dictionary (entries : List (List UInt8 × Value))

/-- `SamplingPriorityVisitor` -/
def samplingPriority : Value → Bool
  | .bool boolValue => boolValue
  | .double doubleValue => 0 < doubleValue
  | .int64 intValue => 0 < intValue
  | .uint64 uintValue => 0 < uintValue
  | .string str | .charPtr str =>
    -- An `int` is read from the text; one that is out of range makes the reading fail.
    match stoll str with
    | .ok intValue => 0 < intValue ∧ intValue < 2 ^ 31
    | .error _ => false
  | .null | .values _ | .dictionary _ => false

structure Tag where
  key : List UInt8
  value : Value

structure LogRecord where
  timestamp : ℤ
  fields : List Tag

/-! ### Contexts -/

namespace SpanContext

def kSampled : BitVec 8 := 1

def kDebug : BitVec 8 := 2

def isSampled (ctx : SpanContext) : Bool := ctx.flags &&& kSampled ≠ 0

def isDebugIDContainerOnly (ctx : SpanContext) : Bool := !ctx.traceID.isValid && ctx.debugID ≠ []

def isValid (ctx : SpanContext) : Bool := ctx.traceID.isValid && ctx.spanID ≠ 0

def withBaggage (ctx : SpanContext) (baggage : StrMap) : SpanContext :=
  { ctx with baggage := baggage }

end SpanContext

/-! ### Baggage -/

structure Restriction where
  keyAllowed : Bool
  maxValueLength : ℕ

/-- The restriction that `DefaultRestrictionManager(0)` has for all keys. -/
def Restriction.default : Restriction := ⟨true, 2048⟩

namespace BaggageSetter

/-- The fields that `logFields` logs. -/
def fields (key value prevItem : List UInt8) (truncated valid : Bool) : List Tag :=
  [⟨text "event", .charPtr (text "baggage")⟩, ⟨text "key", .string key⟩,
      ⟨text "value", .string value⟩] ++
    (if prevItem ≠ [] then [⟨text "override", .charPtr (text "true")⟩] else []) ++
    (if truncated then [⟨text "truncated", .charPtr (text "true")⟩] else []) ++
    if ¬ valid then [⟨text "invalid", .charPtr (text "true")⟩] else []

/-- The baggage, and the fields to be logged. -/
def setBaggage (restriction : Restriction) (baggage : StrMap) (key value : List UInt8) :
    StrMap × List Tag :=
  if ¬ restriction.keyAllowed then (baggage, fields key value [] false restriction.keyAllowed)
  else
    -- The length is converted to `int`, and is negative then where it has been too large.
    let truncated : Bool := restriction.maxValueLength < toInt value.length
    let value := if truncated then value.take restriction.maxValueLength else value
    let prevItem := (baggage.lookup key).getD []
    (baggage.insert key value, fields key value prevItem truncated restriction.keyAllowed)

end BaggageSetter

/-! ### Spans -/

inductive SpanReferenceType where
  | childOfRef
  | followsFromRef
  /-- `SpanReferenceType_JaegerSpecific_SelfRef` -/
  | selfRef
  deriving DecidableEq, Repr

structure Reference where
  spanContext : SpanContext
  type : SpanReferenceType
  deriving DecidableEq

/-- The span of a tracer from `π`. -/
structure Span (π : Type) where
  tracer : π
  context : SpanContext
  operationName : List UInt8
  startTimeSystem : ℤ
  startTimeSteady : ℤ
  duration : ℤ := 0
  tags : List Tag
  logs : List LogRecord := []
  references : List Reference

namespace Span

variable {π : Type} {span : Span π}

def isFinished (span : Span π) : Bool := span.duration ≠ 0

def setOperationName (name : List UInt8) (span : Span π) : Span π :=
  if span.isFinished then span else { span with operationName := name }

def setSamplingPriority (value : Value) (span : Span π) : Span π :=
  let newFlags :=
    if samplingPriority value then
      span.context.flags ||| (SpanContext.kSampled ||| SpanContext.kDebug)
    else span.context.flags &&& ~~~SpanContext.kSampled
  { span with
    context := {
      traceID := span.context.traceID
      spanID := span.context.spanID
      parentID := span.context.parentID
      flags := newFlags
      baggage := span.context.baggage
      debugID := span.context.debugID } }

def setTag (key : List UInt8) (value : Value) (span : Span π) : Span π :=
  if key = text "sampling.priority" then span.setSamplingPriority value
  else if span.isFinished || !span.context.isSampled then span
  else { span with tags := span.tags ++ [⟨key, value⟩] }

def logFieldsNoLocking (timestamp : ℤ) (fields : List Tag) (span : Span π) : Span π :=
  { span with logs := span.logs ++ [⟨timestamp, fields⟩] }

def setBaggageItem (now : ℤ) (restrictedKey value : List UInt8) (span : Span π) : Span π :=
  let (baggage, fields) :=
    BaggageSetter.setBaggage .default span.context.baggage restrictedKey value
  let span := if span.context.isSampled then span.logFieldsNoLocking now fields else span
  { span with context := span.context.withBaggage baggage }

/-- `doLog` -/
def log (timestamp : ℤ) (fieldPairs : List Tag) (span : Span π) : Span π :=
  if span.context.isSampled then span.logFieldsNoLocking timestamp fieldPairs else span

/-- The part of `FinishWithOptions` that holds the mutex, for a span that is not finished. -/
def finish (finishTimeSteady : ℤ) (logRecords : List LogRecord) (span : Span π) : Span π :=
  let duration := finishTimeSteady - span.startTimeSteady
  { span with
    duration := if duration ≤ 0 then 1 else duration
    logs := span.logs ++ logRecords }

/-- The operations of `opentracing::Span` that change it, each while it holds the mutex. Those that
copy a span, swap it with another one or assign to it hold the mutex too, but are none of these. -/
inductive Operation where
  | setOperationName (name : List UInt8)
  | setTag (key : List UInt8) (value : Value)
  | setBaggageItem (now : ℤ) (restrictedKey value : List UInt8)
  | log (timestamp : ℤ) (fieldPairs : List Tag)

def perform : Operation → Span π → Span π
  | .setOperationName name => setOperationName name
  | .setTag key value => setTag key value
  | .setBaggageItem now restrictedKey value => setBaggageItem now restrictedKey value
  | .log timestamp fieldPairs => log timestamp fieldPairs

/-- The operation may change the flags. -/
def Operation.SetsPriority : Operation → Prop
  | .setTag key _ => key = text "sampling.priority"
  | .setOperationName _ | .setBaggageItem _ _ _ | .log _ _ => False

/-! ### What stays -/

/-- What becomes of a span keeps its numbers, its times and its references, and logs more. When it
is finished, its duration, its name and its tags are kept as well. -/
structure Evolves (span span' : Span π) : Prop where
  tracer : span'.tracer = span.tracer
  traceID : span'.context.traceID = span.context.traceID
  spanID : span'.context.spanID = span.context.spanID
  parentID : span'.context.parentID = span.context.parentID
  startTimeSystem : span'.startTimeSystem = span.startTimeSystem
  startTimeSteady : span'.startTimeSteady = span.startTimeSteady
  references : span'.references = span.references
  logs : span.logs <+: span'.logs
  finished : span.isFinished = true → span'.duration = span.duration ∧
    span'.operationName = span.operationName ∧ span'.tags = span.tags

namespace Evolves

variable {span' span'' : Span π}

lemma refl (span : Span π) : Evolves span span := by
  constructor
  case logs => exact List.prefix_rfl
  case finished => exact fun _ => ⟨rfl, rfl, rfl⟩
  all_goals rfl

lemma isFinished (h : Evolves span span') (hfinished : span.isFinished = true) :
    span'.isFinished = true := by
  rw [Span.isFinished, (h.finished hfinished).1]
  exact hfinished

lemma trans (h : Evolves span span') (h' : Evolves span' span'') : Evolves span span'' where
  tracer := h'.tracer.trans h.tracer
  traceID := h'.traceID.trans h.traceID
  spanID := h'.spanID.trans h.spanID
  parentID := h'.parentID.trans h.parentID
  startTimeSystem := h'.startTimeSystem.trans h.startTimeSystem
  startTimeSteady := h'.startTimeSteady.trans h.startTimeSteady
  references := h'.references.trans h.references
  logs := h.logs.trans h'.logs
  finished hfinished := by
    obtain ⟨hduration, hname, htags⟩ := h.finished hfinished
    obtain ⟨hduration', hname', htags'⟩ := h'.finished (h.isFinished hfinished)
    exact ⟨hduration'.trans hduration, hname'.trans hname, htags'.trans htags⟩

lemma logFieldsNoLocking (timestamp : ℤ) (fields : List Tag) (span : Span π) :
    Evolves span (span.logFieldsNoLocking timestamp fields) :=
  { refl span with logs := List.prefix_append _ _ }

lemma withBaggage (baggage : StrMap) (span : Span π) :
    Evolves span { span with context := span.context.withBaggage baggage } :=
  { refl span with }

lemma perform (op : Operation) (span : Span π) : Evolves span (span.perform op) := by
  cases op with
  | setOperationName name =>
    rw [Span.perform, setOperationName]
    split_ifs with hfinished
    · exact refl span
    · exact { refl span with finished := fun h => absurd h hfinished }
  | setTag key value =>
    rw [Span.perform, setTag]
    split_ifs with hkey hfinished
    · exact { refl span with }
    · exact refl span
    · refine { refl span with finished := fun h => absurd ?_ hfinished }
      rw [h, Bool.true_or]
  | setBaggageItem now restrictedKey value =>
    rw [Span.perform, setBaggageItem]
    dsimp only
    split_ifs with hsampled
    · exact (logFieldsNoLocking now _ span).trans (withBaggage _ _)
    · exact withBaggage _ span
  | log timestamp fieldPairs =>
    rw [Span.perform, log]
    split_ifs with hsampled
    · exact logFieldsNoLocking timestamp fieldPairs span
    · exact refl span

lemma finish (finishTimeSteady : ℤ) (logRecords : List LogRecord)
    (h : ¬ span.isFinished = true) : Evolves span (span.finish finishTimeSteady logRecords) :=
  { refl span with
    logs := List.prefix_append _ _
    finished := fun hfinished => absurd hfinished h }

end Evolves

/-- The duration is at least one tick, by which the span is known to be finished. -/
lemma isFinished_finish (finishTimeSteady : ℤ) (logRecords : List LogRecord) (span : Span π) :
    (span.finish finishTimeSteady logRecords).isFinished = true := by
  rw [isFinished, finish, decide_eq_true_iff]
  dsimp only
  split_ifs with hduration
  · exact one_ne_zero
  · exact fun h => hduration h.le

/-- A span is finished by nothing else. -/
lemma duration_perform (op : Operation) : (span.perform op).duration = span.duration := by
  cases op with
  | setOperationName name =>
    rw [perform, setOperationName]
    split_ifs <;> rfl
  | setTag key value =>
    rw [perform, setTag]
    split_ifs <;> rfl
  | setBaggageItem now restrictedKey value =>
    rw [perform, setBaggageItem]
    dsimp only
    split_ifs <;> rfl
  | log timestamp fieldPairs =>
    rw [perform, log]
    split_ifs <;> rfl

lemma isFinished_perform (op : Operation) : (span.perform op).isFinished = span.isFinished := by
  rw [isFinished, isFinished, duration_perform]

/-- The flags stay what they are unless the priority is set. -/
lemma flags_perform {op : Operation} (h : ¬ op.SetsPriority) :
    (span.perform op).context.flags = span.context.flags := by
  cases op with
  | setOperationName name =>
    rw [perform, setOperationName]
    split_ifs <;> rfl
  | setTag key value =>
    have hkey : key ≠ text "sampling.priority" := h
    rw [perform, setTag, if_neg hkey]
    split_ifs <;> rfl
  | setBaggageItem now restrictedKey value =>
    rw [perform, setBaggageItem]
    dsimp only
    split_ifs <;> rfl
  | log timestamp fieldPairs =>
    rw [perform, log]
    split_ifs <;> rfl

end Span

end Tracing
