import CppArchitecture.Reporting.ThriftSender
import Mathlib.Algebra.BigOperators.Group.List.Basic
import Mathlib.Data.Nat.Cast.Order.Ring

/-!
# Batches fit into their packets

Whatever is appended and however the transport fails, the spans in the buffer together stay within
the limit the sender has computed, so every batch fits, as long as no count of bytes overflows. The
sender counts more than it has to: a buffer that is not the first one starts with the size of the
process, which the limit leaves room for already. So the transport over UDP never finds a batch
that does not fit.
-/

namespace Reporting

open Core

variable {Tag Span σ : Type}

/-- Between them the process, the spans and the frame of the message leave a batch within the
packet. -/
def Link.Fits (L : Link Tag Span σ) (b : Batch Tag Span) : Prop :=
  (L.processSize b.process : ℤ) + (b.spans.map L.spanSize).sum + emitBatchOverhead ≤
    L.maxPacketSize

/-- What is serialized is shorter than 2 GiB, and so its size is an `int`. -/
structure Wire.Short (W : Wire Tag Span) : Prop where
  process : ∀ p, W.processSize p < 2 ^ 31
  span : ∀ span, W.spanSize span < 2 ^ 31

namespace ThriftSender

variable {L : Link Tag Span σ} {s t : ThriftSender Tag Span σ} {span : Span} {c : σ}

/-! ### Overflow -/

lemma of_overflowed_addBytes {size : ℤ} (h : (s.addBytes size).overflowed = false) :
    s.overflowed = false ∧ toInt (s.byteBufferSize + size) = s.byteBufferSize + size := by
  obtain ⟨hs, hsum⟩ := Bool.or_eq_false_iff.mp h
  exact ⟨hs, toInt_of_overflows hsum⟩

lemma of_overflowed_startBytes {size : ℤ} (h : (s.startBytes size).overflowed = false) :
    s.overflowed = false ∧ toInt (size + s.processByteSize) = size + s.processByteSize := by
  obtain ⟨hs, hsum⟩ := Bool.or_eq_false_iff.mp h
  exact ⟨hs, toInt_of_overflows hsum⟩

lemma of_overflowed_setProcess (h : (s.setProcess L span).overflowed = false) :
    s.overflowed = false := by
  rw [setProcess] at h
  split_ifs at h
  · exact (Bool.or_eq_false_iff.mp (Bool.or_eq_false_iff.mp h).1).1
  · exact h

/-- A flush adds nothing. -/
lemma overflowed_flush : (after (flush L) s).overflowed = s.overflowed := by
  by_cases hnil : s.spanBuffer = []
  · rw [after_ok (flush_of_nil hnil)]
  · have hrun := flush_of_ne_nil (L := L) hnil
    cases hemit : (L.emitBatch ⟨s.process, s.spanBuffer⟩).run s.transporter with
    | ok _ c =>
      rw [hemit] at hrun
      rw [after_ok hrun]
      rfl
    | error e c =>
      rw [hemit] at hrun
      rw [after_error hrun]
      rfl

/-- The sums of an append that leaves no overflow behind. -/
lemma overflowed_of_append {p q : ThriftSender Tag Span σ} {size : ℤ}
    (hp : s.setProcess L span = p) (hsize : calcSizeOfSerializedThrift (L.spanSize span) = size)
    (hq : p.addBytes size = q) (h : (after (append L span) s).overflowed = false) :
    p.overflowed = false ∧ (¬ p.maxSpanBytes < size → q.overflowed = false) := by
  have hback : q.overflowed = false → p.overflowed = false := fun hover => by
    rw [← hq] at hover
    exact (of_overflowed_addBytes hover).1
  have hrun := append_run hp hsize hq
  split_ifs at hrun with hlarge hlt heq
  · -- the size of a span that is too large is added to nothing
    rw [after_error hrun] at h
    exact ⟨h, fun hle => absurd hlarge hle⟩
  · rw [after_ok hrun] at h
    exact ⟨hback h, fun _ => h⟩
  · have hafter : after (append L span) s = after (flush L) (q.pushBack span) := by
      rw [after, after, hrun]
    rw [hafter, overflowed_flush] at h
    exact ⟨hback h, fun _ => h⟩
  · -- the flush is in between, and adds nothing
    have hover : q.overflowed = false := by
      cases hf : (flush L).run q with
      | ok n t =>
        rw [hf] at hrun
        rw [after_ok hrun] at h
        have hflush := overflowed_flush (L := L) (s := q)
        rw [after_ok hf] at hflush
        exact hflush.symm.trans (of_overflowed_startBytes h).1
      | error e t =>
        rw [hf] at hrun
        rw [after_error hrun] at h
        have hflush := overflowed_flush (L := L) (s := q)
        rw [after_error hf] at hflush
        exact hflush.symm.trans h
    exact ⟨hback hover, fun _ => hover⟩

/-- A call that leaves no overflow behind has found none. -/
lemma overflowed_of_call (k : Call Span)
    (h : (after ((sender L).call k) s).overflowed = false) : s.overflowed = false := by
  cases k with
  | append span => exact of_overflowed_setProcess (overflowed_of_append rfl rfl rfl h).1
  | flush =>
    have hover : (after (flush L) s).overflowed = s.overflowed := overflowed_flush
    exact hover.symm.trans h

/-! ### The invariant -/

/-- The size of the spans in the buffer. -/
def bytes (L : Link Tag Span σ) (s : ThriftSender Tag Span σ) : ℤ :=
  ((s.spanBuffer.map L.spanSize).sum : ℕ)

/-- The counts of the sender bound the spans in its buffer, and it knows its process if it has
spans. -/
structure Sound (L : Link Tag Span σ) (s : ThriftSender Tag Span σ) : Prop where
  processByteSize_nonneg : 0 ≤ s.processByteSize
  bytes_le : bytes L s ≤ s.byteBufferSize
  started : s.spanBuffer ≠ [] → s.process.serviceName ≠ ""
  limit : s.process.serviceName ≠ "" →
    s.maxSpanBytes = L.maxPacketSize - L.processSize s.process - emitBatchOverhead
  within : s.spanBuffer ≠ [] → bytes L s ≤ s.maxSpanBytes

/-- The sender before anything is appended. -/
lemma Sound.start : Sound L { transporter := c } where
  processByteSize_nonneg := le_rfl
  bytes_le := le_rfl
  started h := absurd rfl h
  limit h := absurd rfl h
  within h := absurd rfl h

lemma bytes_pushBack : bytes L (s.pushBack span) = bytes L s + L.spanSize span := by
  simp [bytes, pushBack]

namespace Sound

/-- The batch of a flush fits. -/
lemma fits (h : Sound L s) (hne : s.spanBuffer ≠ []) : L.Fits ⟨s.process, s.spanBuffer⟩ := by
  have hle := h.within hne
  rw [h.limit (h.started hne), bytes] at hle
  rw [Link.Fits]
  push_cast at hle ⊢
  omega

lemma setTransporter (h : Sound L s) (c : σ) : Sound L (s.setTransporter c) :=
  ⟨h.processByteSize_nonneg, h.bytes_le, h.started, h.limit, h.within⟩

lemma resetBuffers (h : Sound L s) : Sound L s.resetBuffers where
  processByteSize_nonneg := h.processByteSize_nonneg
  bytes_le := h.processByteSize_nonneg
  started hne := absurd rfl hne
  limit := h.limit
  within hne := absurd rfl hne

lemma addBytes {n : ℕ} (h : Sound L s) (hover : (s.addBytes n).overflowed = false) :
    Sound L (s.addBytes n) where
  processByteSize_nonneg := h.processByteSize_nonneg
  bytes_le := by
    have hsum := (of_overflowed_addBytes hover).2
    refine h.bytes_le.trans ?_
    rw [ThriftSender.addBytes, hsum]
    exact Int.le_add_of_nonneg_right (Int.natCast_nonneg _)
  started := h.started
  limit := h.limit
  within := h.within

/-- With the process of the span, the sender is sound and has a process. -/
lemma setProcess (h : Sound L s) (hshort : L.Short)
    (hover : (s.setProcess L span).overflowed = false) :
    Sound L (s.setProcess L span) ∧ (s.setProcess L span).process.serviceName ≠ "" := by
  rw [ThriftSender.setProcess] at hover ⊢
  split_ifs at hover ⊢ with hname
  · -- the process of the first span
    have hnil : s.spanBuffer = [] := by
      by_contra hne
      exact h.started hne hname
    have hsize : ∀ p, calcSizeOfSerializedThrift (L.processSize p) = L.processSize p := fun p =>
      toInt_natCast (hshort.process p)
    obtain ⟨hover, hlimit⟩ := Bool.or_eq_false_iff.mp hover
    have hrest := toInt_of_overflows (Bool.or_eq_false_iff.mp hover).2
    have hmax := toInt_of_overflows hlimit
    rw [hrest] at hmax
    refine ⟨⟨?_, h.bytes_le, ?_, fun _ => ?_, ?_⟩, ?_⟩
    · simp only [hsize]
      exact Int.natCast_nonneg _
    · exact fun hne => absurd hnil hne
    · simp only [hrest, hmax]
      rw [hsize]
    · exact fun hne => absurd hnil hne
    · exact (L.tracer span).serviceName_ne
  · exact ⟨h, hname⟩

/-- A span that leaves the count within the limit is pushed into the buffer. -/
lemma pushBack_addBytes (h : Sound L s) (hname : s.process.serviceName ≠ "")
    (hover : (s.addBytes (L.spanSize span)).overflowed = false)
    (hle : (s.addBytes (L.spanSize span)).byteBufferSize ≤ s.maxSpanBytes) :
    Sound L ((s.addBytes (L.spanSize span)).pushBack span) := by
  have hsum := (of_overflowed_addBytes hover).2
  have hbytes : bytes L ((s.addBytes (L.spanSize span)).pushBack span) ≤
      (s.addBytes (L.spanSize span)).byteBufferSize := by
    rw [bytes_pushBack, ThriftSender.addBytes, hsum]
    exact Int.add_le_add_right h.bytes_le _
  exact ⟨h.processByteSize_nonneg, hbytes, fun _ => hname, h.limit, fun _ => hbytes.trans hle⟩

/-- A span that is not too large is pushed into an empty buffer. -/
lemma pushBack_of_nil (h : Sound L s) (hname : s.process.serviceName ≠ "")
    (hnil : s.spanBuffer = []) (hle : (L.spanSize span : ℤ) ≤ s.maxSpanBytes)
    (hover : ((s.pushBack span).startBytes (L.spanSize span)).overflowed = false) :
    Sound L ((s.pushBack span).startBytes (L.spanSize span)) := by
  have hbytes : bytes L (s.pushBack span) = L.spanSize span := by
    rw [bytes_pushBack, bytes, hnil]
    exact zero_add _
  refine ⟨h.processByteSize_nonneg, ?_, fun _ => hname, h.limit, fun _ => hbytes.trans_le hle⟩
  rw [startBytes, (of_overflowed_startBytes hover).2]
  exact hbytes.trans_le (Int.le_add_of_nonneg_right h.processByteSize_nonneg)

end Sound

/-- A flush that returns leaves an empty buffer, and the rest as it was. -/
lemma flush_ok {n : ℤ} (hrun : (flush L).run s = .ok n t) :
    t.spanBuffer = [] ∧ t.process = s.process ∧ t.maxSpanBytes = s.maxSpanBytes := by
  by_cases hnil : s.spanBuffer = []
  · rw [flush_of_nil hnil] at hrun
    cases hrun
    exact ⟨hnil, rfl, rfl⟩
  · rw [flush_of_ne_nil hnil] at hrun
    cases hemit : (L.emitBatch ⟨s.process, s.spanBuffer⟩).run s.transporter with
    | ok _ c =>
      rw [hemit] at hrun
      cases hrun
      exact ⟨rfl, rfl, rfl⟩
    | error e c =>
      rw [hemit] at hrun
      cases hrun

lemma Sound.flush (h : Sound L s) : Sound L (after (flush L) s) := by
  by_cases hnil : s.spanBuffer = []
  · rw [after_ok (flush_of_nil hnil)]
    exact h
  · have hrun := flush_of_ne_nil (L := L) hnil
    cases hemit : (L.emitBatch ⟨s.process, s.spanBuffer⟩).run s.transporter with
    | ok _ c =>
      rw [hemit] at hrun
      rw [after_ok hrun]
      exact (h.setTransporter c).resetBuffers
    | error e c =>
      rw [hemit] at hrun
      rw [after_error hrun]
      exact h.setTransporter c

/-! ### Calls without overflow -/

lemma flush_congr {W : Wire Tag Span} {T T' : Transport Tag Span σ} (h : Sound ⟨W, T⟩ s)
    (hagree : ∀ b, Link.Fits ⟨W, T⟩ b → T.emitBatch b = T'.emitBatch b) :
    (flush ⟨W, T⟩).run s = (flush ⟨W, T'⟩).run s := by
  by_cases hnil : s.spanBuffer = []
  · rw [flush_of_nil hnil, flush_of_nil hnil]
  · rw [flush_of_ne_nil hnil, flush_of_ne_nil hnil]
    simp only [hagree _ (h.fits hnil)]

/-- An append without overflow keeps the sender sound, and has the same outcome with a transport
that agrees on what fits. -/
lemma sound_append {W : Wire Tag Span} {T T' : Transport Tag Span σ} (h : Sound ⟨W, T⟩ s)
    (hshort : W.Short) (hmax : T.maxPacketSize = T'.maxPacketSize)
    (hagree : ∀ b, Link.Fits ⟨W, T⟩ b → T.emitBatch b = T'.emitBatch b)
    (hover : (after (append ⟨W, T⟩ span) s).overflowed = false) :
    Sound ⟨W, T⟩ (after (append ⟨W, T⟩ span) s) ∧
      (append ⟨W, T⟩ span).run s = (append ⟨W, T'⟩ span).run s := by
  have hsize : calcSizeOfSerializedThrift (W.spanSize span) = W.spanSize span :=
    toInt_natCast (hshort.span span)
  have hp' : s.setProcess ⟨W, T'⟩ span = s.setProcess ⟨W, T⟩ span := by
    simp only [ThriftSender.setProcess, hmax]
  have hset : (s.setProcess ⟨W, T⟩ span).overflowed = false → _ := h.setProcess hshort
  have hrun := append_run (rfl : s.setProcess ⟨W, T⟩ span = _) hsize rfl
  have hrun' := append_run hp' hsize rfl
  generalize s.setProcess ⟨W, T⟩ span = p at hset hrun hrun'
  split_ifs at hrun hrun' with hlarge hlt heq
  · -- the span is too large
    rw [after_error hrun] at hover ⊢
    exact ⟨(hset hover).1, hrun.trans hrun'.symm⟩
  · -- it fits, and there is room for more
    rw [after_ok hrun] at hover ⊢
    obtain ⟨hp, hname⟩ := hset (of_overflowed_addBytes hover).1
    exact ⟨hp.pushBack_addBytes hname hover hlt.le, hrun.trans hrun'.symm⟩
  · -- the buffer is full with it
    have hafter : after (append ⟨W, T⟩ span) s =
        after (flush ⟨W, T⟩) ((p.addBytes (W.spanSize span)).pushBack span) := by
      rw [after, after, hrun]
    rw [hafter] at hover ⊢
    rw [overflowed_flush] at hover
    obtain ⟨hp, hname⟩ := hset (of_overflowed_addBytes hover).1
    have hpush := hp.pushBack_addBytes (L := ⟨W, T⟩) hname hover heq.le
    refine ⟨hpush.flush, ?_⟩
    rw [hrun, hrun']
    exact flush_congr hpush hagree
  · -- the buffer is full without it
    have hoverq : ∀ t, after (flush ⟨W, T⟩) (p.addBytes (W.spanSize span)) = t →
        t.overflowed = false → (p.addBytes (W.spanSize span)).overflowed = false := by
      rintro t rfl ht
      exact overflowed_flush.symm.trans ht
    cases hf : (flush ⟨W, T⟩).run (p.addBytes (W.spanSize span)) with
    | ok n t =>
      rw [hf] at hrun
      rw [after_ok hrun] at hover ⊢
      have hq := hoverq t (after_ok hf) (of_overflowed_startBytes hover).1
      obtain ⟨hp, hname⟩ := hset (of_overflowed_addBytes hq).1
      have hadd := hp.addBytes hq
      have hflush := hadd.flush
      rw [after_ok hf] at hflush
      obtain ⟨hnil, hprocess, hmaxt⟩ := flush_ok hf
      refine ⟨hflush.pushBack_of_nil ?_ hnil ?_ hover, ?_⟩
      · rw [hprocess]
        exact hname
      · rw [hmaxt]
        exact Int.not_lt.mp hlarge
      · rw [hrun, hrun', ← flush_congr hadd hagree, hf]
    | error e t =>
      rw [hf] at hrun
      rw [after_error hrun] at hover ⊢
      have hq := hoverq t (after_error hf) hover
      obtain ⟨hp, -⟩ := hset (of_overflowed_addBytes hq).1
      have hadd := hp.addBytes hq
      have hflush := hadd.flush
      rw [after_error hf] at hflush
      refine ⟨hflush, ?_⟩
      rw [hrun, hrun', ← flush_congr hadd hagree, hf]

end ThriftSender

/-! ### The transport over UDP -/

namespace UDPTransporter

/-- `kUDPPacketMaxLength` -/
def udpPacketMaxLength : ℤ := 65000

/-- The size of a serialized batch, `::send` for one, with the number of bytes written, or a
negative number, and `errno`, and the message of `std::system_category` for an `errno`. -/
structure Socket (Tag Span σ : Type) where
  batchSize : Batch Tag Span → ℕ
  send : Batch Tag Span → σ → (ℤ × ℤ) × σ
  message : ℤ → String

/-- What `emitBatch` does with a batch that fits. -/
def write (S : Socket Tag Span σ) (b : Batch Tag Span) : EStateM TransportError σ PUnit := do
  let (numWritten, errno) ← modifyGet (S.send b)
  if numWritten ≠ S.batchSize b then
    throw (.systemError ("Failed to write message, numWritten=" ++ toString numWritten ++
      ", size=" ++ toString (S.batchSize b) ++ ": " ++ S.message errno) errno)

def emitBatch (S : Socket Tag Span σ) (maxPacketSize : ℤ) (b : Batch Tag Span) :
    EStateM TransportError σ PUnit :=
  if maxPacketSize < toInt (S.batchSize b) then
    throw (.exception ("Data does not fit within one UDP packet, size " ++
      toString (S.batchSize b) ++ ", max " ++ toString maxPacketSize ++ ", spans " ++
      toString b.spans.length))
  else write S b

/-- The constructor. -/
def transport (S : Socket Tag Span σ) (maxPacketSize : ℤ) : Transport Tag Span σ :=
  let maxPacketSize := if maxPacketSize = 0 then udpPacketMaxLength else maxPacketSize
  { maxPacketSize := maxPacketSize
    emitBatch := emitBatch S maxPacketSize }

/-- The same transport without the check of the size. -/
def unchecked (S : Socket Tag Span σ) (maxPacketSize : ℤ) : Transport Tag Span σ :=
  { transport S maxPacketSize with emitBatch := write S }

variable {W : Wire Tag Span} {S : Socket Tag Span σ} {maxPacketSize : ℤ}

lemma emitBatch_transport : (transport S maxPacketSize).emitBatch =
    emitBatch S (transport S maxPacketSize).maxPacketSize := by rw [transport]

lemma write_run {b : Batch Tag Span} {c : σ} : (write S b).run c =
    if (S.send b c).1.1 = S.batchSize b then .ok ⟨⟩ (S.send b c).2
    else .error (.systemError ("Failed to write message, numWritten=" ++
      toString (S.send b c).1.1 ++ ", size=" ++ toString (S.batchSize b) ++ ": " ++
      S.message (S.send b c).1.2) (S.send b c).1.2) (S.send b c).2 := by
  change (if (S.send b c).1.1 ≠ S.batchSize b then _ else _ : EStateM TransportError σ PUnit).run
    (S.send b c).2 = _
  by_cases hwritten : (S.send b c).1.1 = S.batchSize b
  · rw [if_neg (not_not.mpr hwritten), if_pos hwritten]
    rfl
  · rw [if_pos hwritten, if_neg hwritten]
    rfl

/-- Spans that are as long as they say, but for those of more than 1000 bytes. -/
def natWire : Wire Unit ℕ where
  tracer _ := ⟨"service", [], by decide⟩
  processSize _ := 10
  spanSize span := min span 1000

/-- A socket that writes all of a message. -/
def natSocket : Socket Unit ℕ (List (Batch Unit ℕ)) where
  batchSize b := 34 + (b.spans.map natWire.spanSize).sum
  send b sent := ((34 + (b.spans.map natWire.spanSize).sum, 0), sent ++ [b])
  message _ := "Success"

/-- A sender over a socket that writes all of a message. -/
def natLink : Link Unit ℕ (List (Batch Unit ℕ)) := ⟨natWire, transport natSocket 100⟩

/-- A serialized batch is at most as long as its process, its spans and the overhead the sender
allows for. -/
def WithinOverhead (W : Wire Tag Span) (S : Socket Tag Span σ) : Prop :=
  ∀ b, (S.batchSize b : ℤ) ≤
    (W.processSize b.process : ℤ) + (b.spans.map W.spanSize).sum + emitBatchOverhead

lemma emitBatch_of_fits (hsize : WithinOverhead W S) {b : Batch Tag Span}
    (hfits : Link.Fits ⟨W, transport S maxPacketSize⟩ b) :
    (transport S maxPacketSize).emitBatch b = (unchecked S maxPacketSize).emitBatch b := by
  have hle : toInt (S.batchSize b) ≤ (transport S maxPacketSize).maxPacketSize :=
    (toInt_le (Int.natCast_nonneg _)).trans ((hsize b).trans hfits)
  rw [emitBatch_transport, unchecked, emitBatch, if_neg (Int.not_lt.mpr hle)]

/-- Whatever the spans and the socket do, `emitBatch` never finds that the data does not fit, as
long as no count of bytes overflows: the results of all calls and the state of the sender are those
without the check. -/
theorem batches_fit (hshort : W.Short) (hsize : WithinOverhead W S) (c : σ)
    (calls : List (Call Span))
    (hover : (attempts (ThriftSender.sender ⟨W, transport S maxPacketSize⟩).call
      { transporter := c } calls).2.overflowed = false) :
    attempts (ThriftSender.sender ⟨W, transport S maxPacketSize⟩).call { transporter := c } calls =
      attempts (ThriftSender.sender ⟨W, unchecked S maxPacketSize⟩).call { transporter := c }
        calls := by
  have hagree : ∀ b, Link.Fits ⟨W, transport S maxPacketSize⟩ b →
      (transport S maxPacketSize).emitBatch b = (unchecked S maxPacketSize).emitBatch b :=
    fun b => emitBatch_of_fits hsize
  have hkeep : ∀ s (k : Call Span), ThriftSender.Sound ⟨W, transport S maxPacketSize⟩ s →
      (after ((ThriftSender.sender ⟨W, transport S maxPacketSize⟩).call k) s).overflowed = false →
      ThriftSender.Sound ⟨W, transport S maxPacketSize⟩
          (after ((ThriftSender.sender ⟨W, transport S maxPacketSize⟩).call k) s) ∧
        ((ThriftSender.sender ⟨W, transport S maxPacketSize⟩).call k).run s =
          ((ThriftSender.sender ⟨W, unchecked S maxPacketSize⟩).call k).run s := by
    intro s k h hgood
    cases k with
    | append span => exact ThriftSender.sound_append h hshort rfl hagree hgood
    | flush => exact ⟨h.flush, ThriftSender.flush_congr h hagree⟩
  exact attempts_congr (fun s => s.overflowed = false)
    (fun s k => ThriftSender.overflowed_of_call k) (fun s k h hgood => (hkeep s k h hgood).1)
    (fun s k h hgood => (hkeep s k h hgood).2) ThriftSender.Sound.start hover

lemma withinOverhead_nat : WithinOverhead natWire natSocket := by
  intro b
  simp only [natSocket, natWire, emitBatchOverhead]
  push_cast
  omega

lemma short_nat : natWire.Short where
  process _ := show 10 < 2 ^ 31 by decide
  span span := (min_le_right span 1000).trans_lt (by decide)

theorem batches_fit_nat :
    attempts (ThriftSender.sender ⟨natWire, transport natSocket 100⟩).call { transporter := [] }
        [.append 40, .append 30, .flush] =
      attempts (ThriftSender.sender ⟨natWire, unchecked natSocket 100⟩).call { transporter := [] }
        [.append 40, .append 30, .flush] :=
  batches_fit short_nat withinOverhead_nat [] _ (by decide +kernel)

end UDPTransporter

end Reporting
