import CppArchitecture.Core.Integers
import CppArchitecture.Core.Method

/-!
# Batches of spans

A `ThriftSender` collects spans and emits them in batches. A batch has to fit into one packet of
the transport, together with the process of the tracer and the frame of the message. Where the
transport throws, the spans of the batch stay in the buffer. The bytes are counted in `int`s, whose
sums may overflow.
-/

namespace Reporting

open Core

/-- `Sender::Exception` -/
structure SenderException where
  what : String
  numFailed : ℤ
  deriving DecidableEq, Repr

/-- The interface `Sender`, whose object is of type `τ`: a call returns how many spans it has
sent. -/
structure Sender (Span τ : Type) where
  append : Span → EStateM SenderException τ ℤ
  flush : EStateM SenderException τ ℤ

/-- The calls of a sender. -/
inductive Call (Span : Type) where
  | append (span : Span)
  | flush

def Sender.call {Span τ : Type} (S : Sender Span τ) : Call Span → EStateM SenderException τ ℤ
  | .append span => S.append span
  | .flush => S.flush

/-- What a transport throws: a `std::system_error`, another `std::exception`, or anything else. -/
inductive TransportError where
  | systemError (what : String) (code : ℤ)
  | exception (what : String)
  | other
  deriving DecidableEq, Repr

/-- The tracer of a span; `Tracer::make` throws if it is given no service name. -/
structure Tracer (Tag : Type) where
  serviceName : String
  tags : List Tag
  serviceName_ne : serviceName ≠ ""

/-- `thrift::Process` -/
structure Process (Tag : Type) where
  serviceName : String := ""
  tags : List Tag := []

/-- `thrift::Batch` -/
structure Batch (Tag Span : Type) where
  process : Process Tag
  spans : List Span

/-- The tracers of the spans, and the sizes of their Thrift serialization. -/
structure Wire (Tag Span : Type) where
  tracer : Span → Tracer Tag
  processSize : Process Tag → ℕ
  spanSize : Span → ℕ

/-- A transport, whose own state is of type `σ`. -/
structure Transport (Tag Span σ : Type) where
  maxPacketSize : ℤ
  emitBatch : Batch Tag Span → EStateM TransportError σ PUnit

/-- What a sender works with. -/
structure Link (Tag Span σ : Type) extends Wire Tag Span, Transport Tag Span σ

/-- `kEmitBatchOverhead` -/
def emitBatchOverhead : ℤ := 30

/-- `calcSizeOfSerializedThrift`, for what is serialized in `size` bytes. -/
def calcSizeOfSerializedThrift (size : ℕ) : ℤ := toInt size

/-- The fields of a `ThriftSender`, as its constructor sets them. It is written down whether a sum
of byte counts has overflowed. That is undefined, and the lower bits of the sum stand for it. -/
structure ThriftSender (Tag Span σ : Type) where
  transporter : σ
  maxSpanBytes : ℤ := 0
  byteBufferSize : ℤ := 0
  spanBuffer : List Span := []
  process : Process Tag := {}
  processByteSize : ℤ := 0
  overflowed : Bool := false

variable {Tag Span σ : Type}

namespace ThriftSender

/-- The first span that is appended sets the process of all the batches. -/
def setProcess (L : Link Tag Span σ) (span : Span) (s : ThriftSender Tag Span σ) :
    ThriftSender Tag Span σ :=
  if s.process.serviceName = "" then
    let process : Process Tag := ⟨(L.tracer span).serviceName, (L.tracer span).tags⟩
    let processByteSize := calcSizeOfSerializedThrift (L.processSize process)
    let rest := L.maxPacketSize - processByteSize
    { s with
      process := process
      processByteSize := processByteSize
      maxSpanBytes := toInt (toInt rest - emitBatchOverhead)
      overflowed := s.overflowed || overflows rest || overflows (toInt rest - emitBatchOverhead) }
  else s

def resetBuffers (s : ThriftSender Tag Span σ) : ThriftSender Tag Span σ :=
  { s with spanBuffer := [], byteBufferSize := s.processByteSize }

/-- `_byteBufferSize += spanSize` -/
def addBytes (spanSize : ℤ) (s : ThriftSender Tag Span σ) : ThriftSender Tag Span σ :=
  { s with
    byteBufferSize := toInt (s.byteBufferSize + spanSize)
    overflowed := s.overflowed || overflows (s.byteBufferSize + spanSize) }

/-- `_spanBuffer.push_back(span)` -/
def pushBack (span : Span) (s : ThriftSender Tag Span σ) : ThriftSender Tag Span σ :=
  { s with spanBuffer := s.spanBuffer ++ [span] }

/-- `_byteBufferSize = spanSize + _processByteSize` -/
def startBytes (spanSize : ℤ) (s : ThriftSender Tag Span σ) : ThriftSender Tag Span σ :=
  { s with
    byteBufferSize := toInt (spanSize + s.processByteSize)
    overflowed := s.overflowed || overflows (spanSize + s.processByteSize) }

def setTransporter (s : ThriftSender Tag Span σ) (transporter : σ) : ThriftSender Tag Span σ :=
  { s with transporter := transporter }

variable {s t : ThriftSender Tag Span σ} {L : Link Tag Span σ} {span : Span} {size : ℤ}

@[simp] lemma transporter_addBytes : (s.addBytes size).transporter = s.transporter := by
  rw [addBytes]

@[simp] lemma maxSpanBytes_addBytes : (s.addBytes size).maxSpanBytes = s.maxSpanBytes := by
  rw [addBytes]

@[simp] lemma process_addBytes : (s.addBytes size).process = s.process := by
  rw [addBytes]

@[simp] lemma transporter_pushBack : (s.pushBack span).transporter = s.transporter := rfl

@[simp] lemma transporter_startBytes : (s.startBytes size).transporter = s.transporter := by
  rw [startBytes]

@[simp] lemma transporter_setProcess : (s.setProcess L span).transporter = s.transporter := by
  rw [setProcess]
  split_ifs <;> rfl

@[simp] lemma spanBuffer_addBytes : (s.addBytes size).spanBuffer = s.spanBuffer := by
  rw [addBytes]

@[simp] lemma spanBuffer_pushBack : (s.pushBack span).spanBuffer = s.spanBuffer ++ [span] := rfl

@[simp] lemma spanBuffer_startBytes : (s.startBytes size).spanBuffer = s.spanBuffer := by
  rw [startBytes]

@[simp] lemma spanBuffer_setProcess : (s.setProcess L span).spanBuffer = s.spanBuffer := by
  rw [setProcess]
  split_ifs <;> rfl

@[simp] lemma maxSpanBytes_setTransporter {c : σ} :
    (s.setTransporter c).maxSpanBytes = s.maxSpanBytes := rfl

@[simp] lemma byteBufferSize_setTransporter {c : σ} :
    (s.setTransporter c).byteBufferSize = s.byteBufferSize := rfl

@[simp] lemma spanBuffer_setTransporter {c : σ} :
    (s.setTransporter c).spanBuffer = s.spanBuffer := rfl

@[simp] lemma process_setTransporter {c : σ} : (s.setTransporter c).process = s.process := rfl

@[simp] lemma overflowed_setTransporter {c : σ} :
    (s.setTransporter c).overflowed = s.overflowed := rfl

/-- A sum that does not overflow. -/
lemma addBytes_of_overflows (h : overflows (s.byteBufferSize + size) = false) :
    (s.addBytes size).byteBufferSize = s.byteBufferSize + size ∧
      (s.addBytes size).overflowed = s.overflowed := by
  simp only [addBytes, toInt_of_overflows h, h, Bool.or_false, and_self]

/-- The exception a flush throws for one of the transport. -/
def couldNotSend (numFailed : ℤ) : TransportError → SenderException
  | .systemError what code =>
    ⟨"Could not send span " ++ what ++ ", code=" ++ toString code, numFailed⟩
  | .exception what => ⟨"Could not send span " ++ what, numFailed⟩
  | .other => ⟨"Could not send span, unknown error", numFailed⟩

def flush (L : Link Tag Span σ) : EStateM SenderException (ThriftSender Tag Span σ) ℤ := do
  let s ← get
  if s.spanBuffer.isEmpty then return 0
  else
    let batch : Batch Tag Span := ⟨s.process, s.spanBuffer⟩
    (zoom transporter setTransporter (L.emitBatch batch)).adaptExcept
      (couldNotSend s.spanBuffer.length)
    modify resetBuffers
    return batch.spans.length

def append (L : Link Tag Span σ) (span : Span) :
    EStateM SenderException (ThriftSender Tag Span σ) ℤ := do
  modify (setProcess L span)
  let spanSize := calcSizeOfSerializedThrift (L.spanSize span)
  if (← get).maxSpanBytes < spanSize then throw ⟨"Span is too large", 1⟩
  else
    modify (addBytes spanSize)
    let s ← get
    if s.byteBufferSize ≤ s.maxSpanBytes then
      modify (pushBack span)
      if s.byteBufferSize < s.maxSpanBytes then return 0 else flush L
    else
      -- flush the full buffer, then append the span
      let flushed ← flush L
      modify (pushBack span)
      modify (startBytes spanSize)
      return flushed

/-- A `ThriftSender` as a sender. -/
def sender (L : Link Tag Span σ) : Sender Span (ThriftSender Tag Span σ) where
  append := append L
  flush := flush L

/-! ### Flushing -/

lemma flush_of_nil (h : s.spanBuffer = []) : (flush L).run s = .ok 0 s := by
  change (if s.spanBuffer.isEmpty then _ else _ : EStateM _ _ _).run s = _
  rw [h, List.isEmpty_nil, if_pos rfl]
  rfl

/-- A flush of spans is the emission of a batch; then the buffers are reset. -/
lemma flush_of_ne_nil (h : s.spanBuffer ≠ []) : (flush L).run s =
    match (L.emitBatch ⟨s.process, s.spanBuffer⟩).run s.transporter with
    | .ok _ c => .ok (s.spanBuffer.length : ℤ) (s.setTransporter c).resetBuffers
    | .error e c => .error (couldNotSend s.spanBuffer.length e) (s.setTransporter c) := by
  have hempty : ¬ s.spanBuffer.isEmpty = true := by
    rwa [List.isEmpty_iff]
  change (if s.spanBuffer.isEmpty then _ else _ : EStateM _ _ _).run s = _
  rw [if_neg hempty]
  change EStateM.bind _ _ s = _
  -- what the transport does, and then what becomes of its exception
  simp only [EStateM.bind, EStateM.adaptExcept, zoom]
  cases (L.emitBatch ⟨s.process, s.spanBuffer⟩).run s.transporter <;> rfl

/-! ### Appending -/

/-- The four ways an append can go: from the sender `p` with its process set, by way of `q` with the
size of the span added. -/
lemma append_run {p q : ThriftSender Tag Span σ} (hp : s.setProcess L span = p)
    (hsize : calcSizeOfSerializedThrift (L.spanSize span) = size) (hq : p.addBytes size = q) :
    (append L span).run s =
      if p.maxSpanBytes < size then .error ⟨"Span is too large", 1⟩ p
      else if q.byteBufferSize < q.maxSpanBytes then .ok 0 (q.pushBack span)
      else if q.byteBufferSize = q.maxSpanBytes then (flush L).run (q.pushBack span)
      else match (flush L).run q with
        | .ok flushed t => .ok flushed ((t.pushBack span).startBytes size)
        | .error e t => .error e t := by
  simp only [append, EStateM.run_bind, EStateM.run_modify, EStateM.run_get, hp, hsize]
  by_cases hlarge : p.maxSpanBytes < size
  · rw [if_pos hlarge, if_pos hlarge]
    rfl
  · rw [if_neg hlarge, if_neg hlarge]
    simp only [EStateM.run_bind, EStateM.run_modify, EStateM.run_get, hq]
    split_ifs with hle hlt heq hlt heq
    all_goals first | rfl | omega | skip
    -- what is left is the flush of a buffer that is full without the span
    simp only [EStateM.run_bind, EStateM.run_modify]
    cases (flush L).run q <;> rfl

end ThriftSender

end Reporting
