import CppArchitecture.Reporting.Packets

/-!
# What becomes of a span

A sender keeps the spans it has taken in their order: those of the batches it has sent, and then
those in its buffer. An append adds its span at the end, or not at all if the span is too large or
the full buffer cannot be flushed. What a call returns is the number of spans it has sent.
-/

namespace Reporting

open Core

variable {Tag Span σ τ : Type}

/-- A sender keeps the spans it has taken in their order, and a call that returns tells how many of
them it has sent. An exception counts at least one span. -/
structure Sending (S : Sender Span τ) where
  kept : τ → List Span
  sent : τ → List Span
  sent_prefix : ∀ s, sent s <+: kept s
  append_ok : ∀ span s n t, (S.append span).run s = .ok n t →
    kept t = kept s ++ [span] ∧ sent s <+: sent t ∧ ((sent t).length : ℤ) = (sent s).length + n
  append_failed : ∀ span s e t, (S.append span).run s = .error e t → 0 < e.numFailed
  flush_ok : ∀ s n t, S.flush.run s = .ok n t →
    kept t = kept s ∧ sent t = kept s ∧ ((sent t).length : ℤ) = (sent s).length + n
  flush_failed : ∀ s e t, S.flush.run s = .error e t → 0 < e.numFailed

/-- So does one whose calls have sent nothing if they throw. -/
structure Delivery (S : Sender Span τ) extends Sending S where
  append_error : ∀ span s e t, (S.append span).run s = .error e t →
    (kept t = kept s ∨ kept t = kept s ++ [span]) ∧ sent t = sent s
  flush_error : ∀ s e t, S.flush.run s = .error e t → kept t = kept s ∧ sent t = sent s

/-- The spans of the appends, in their order. -/
def appended : List (Call Span) → List Span
  | [] => []
  | .append span :: calls => span :: appended calls
  | .flush :: calls => appended calls

/-- The sum of what the calls have returned. -/
def returned : List (Except SenderException ℤ) → ℤ
  | [] => 0
  | .ok n :: results => n + returned results
  | .error _ :: results => returned results

namespace Delivery

variable {S : Sender Span τ} (D : Delivery S) {s : τ}

/-- What one call does to the spans. -/
lemma call_cases (k : Call Span) (s : τ) :
    (∃ spans, spans.Sublist (appended [k]) ∧ D.kept (after (S.call k) s) = D.kept s ++ spans ∧
      ((∃ n, (attempt (S.call k) s).1 = .ok n) → spans = appended [k])) ∧
    ((D.sent (after (S.call k) s)).length : ℤ) =
      (D.sent s).length + returned [(attempt (S.call k) s).1] := by
  match k with
  | .append span =>
    cases hrun : (S.append span).run s with
    | ok n t =>
      obtain ⟨hkept, _, hlength⟩ := D.append_ok span s n t hrun
      simp only [Sender.call, after, attempt, hrun]
      refine ⟨⟨[span], List.Sublist.refl _, hkept, fun _ => rfl⟩, ?_⟩
      rw [hlength, returned, returned, add_zero]
    | error e t =>
      obtain ⟨hkept, hsent⟩ := D.append_error span s e t hrun
      simp only [Sender.call, after, attempt, hrun]
      refine ⟨?_, by rw [hsent, returned, returned, add_zero]⟩
      -- the span is lost, or it stays in the buffer
      rcases hkept with hkept | hkept
      · exact ⟨[], List.nil_sublist _, by rw [hkept, List.append_nil], by simp⟩
      · exact ⟨[span], List.Sublist.refl _, hkept, by simp⟩
  | .flush =>
    cases hrun : S.flush.run s with
    | ok n t =>
      obtain ⟨hkept, _, hlength⟩ := D.flush_ok s n t hrun
      simp only [Sender.call, after, attempt, hrun]
      refine ⟨⟨[], List.Sublist.refl _, by rw [hkept, List.append_nil], fun _ => rfl⟩, ?_⟩
      rw [hlength, returned, returned, add_zero]
    | error e t =>
      obtain ⟨hkept, hsent⟩ := D.flush_error s e t hrun
      simp only [Sender.call, after, attempt, hrun]
      refine ⟨⟨[], List.Sublist.refl _, by rw [hkept, List.append_nil], by simp⟩, ?_⟩
      rw [hsent, returned, returned, add_zero]

/-- Over any calls a sender takes spans in the order they are appended in, none of them twice, and
all of them if no call throws; and it has sent as many as the calls have returned. -/
theorem attempts_cases (calls : List (Call Span)) (s : τ) :
    (∃ spans, spans.Sublist (appended calls) ∧
      D.kept (attempts S.call s calls).2 = D.kept s ++ spans ∧
      ((∀ r ∈ (attempts S.call s calls).1, ∃ n, r = .ok n) → spans = appended calls)) ∧
    ((D.sent (attempts S.call s calls).2).length : ℤ) =
      (D.sent s).length + returned (attempts S.call s calls).1 := by
  induction calls generalizing s with
  | nil => exact ⟨⟨[], List.Sublist.refl _, (List.append_nil _).symm, fun _ => rfl⟩,
      (add_zero _).symm⟩
  | cons k calls ih =>
    obtain ⟨⟨spans, hsub, hkept, hall⟩, hlength⟩ := D.call_cases k s
    obtain ⟨⟨rest, hsub', hkept', hall'⟩, hlength'⟩ := ih (after (S.call k) s)
    have happended : appended (k :: calls) = appended [k] ++ appended calls := by
      cases k <;> rfl
    have hreturned : ∀ (r : Except SenderException ℤ) rs,
        returned (r :: rs) = returned [r] + returned rs := by
      intro r rs
      cases r <;> simp [returned]
    rw [attempts_cons, happended]
    refine ⟨⟨spans ++ rest, hsub.append hsub', ?_, fun hok => ?_⟩, ?_⟩
    · rw [hkept', hkept, List.append_assoc]
    · rw [hall (hok _ List.mem_cons_self), hall' fun r hr => hok r (List.mem_cons_of_mem _ hr)]
    · rw [hlength', hlength, add_assoc, ← hreturned]

end Delivery

/-- The batches a transport has sent: one more if `emitBatch` returns. -/
structure SentBatches (T : Transport Tag Span σ) where
  batches : σ → List (Batch Tag Span)
  emit_ok : ∀ b c u d, (T.emitBatch b).run c = .ok u d → batches d = batches c ++ [b]

/-- Those of a transport that has sent nothing if `emitBatch` throws. One that waits for an answer
to what it has sent may throw when it has. -/
structure SentUnlessThrown (T : Transport Tag Span σ) extends SentBatches T where
  emit_error : ∀ b c e d, (T.emitBatch b).run c = .error e d → batches d = batches c

namespace UDPTransporter

/-- Over UDP the batches that have been sent are those that `::send` has written in full. -/
def sentBatches (S : Socket Tag Span σ) (maxPacketSize : ℤ)
    (batches : σ → List (Batch Tag Span))
    (hsend : ∀ b c, batches (S.send b c).2 =
      if (S.send b c).1.1 = S.batchSize b then batches c ++ [b] else batches c) :
    SentUnlessThrown (transport S maxPacketSize) where
  batches := batches
  emit_ok b c u d hrun := by
    rw [emitBatch_transport, emitBatch] at hrun
    split_ifs at hrun with hlarge
    · cases hrun
    · rw [write_run] at hrun
      split_ifs at hrun with hwritten
      cases hrun
      rw [hsend, if_pos hwritten]
  emit_error b c e d hrun := by
    rw [emitBatch_transport, emitBatch] at hrun
    split_ifs at hrun with hlarge
    · cases hrun
      rfl
    · rw [write_run] at hrun
      split_ifs at hrun with hwritten
      cases hrun
      rw [hsend, if_neg hwritten]

def natSent : SentUnlessThrown natLink.toTransport :=
  sentBatches natSocket 100 (fun sent => sent) fun _ _ => (if_pos rfl).symm

end UDPTransporter

namespace ThriftSender

variable {L : Link Tag Span σ} {s t : ThriftSender Tag Span σ} {span : Span} {n : ℤ}
  {e : SenderException}

/-- A flush that throws keeps the buffer, and counts its spans. -/
lemma flush_error (hrun : (flush L).run s = .error e t) :
    t.spanBuffer = s.spanBuffer ∧ 0 < e.numFailed ∧
      ∃ e', (L.emitBatch ⟨s.process, s.spanBuffer⟩).run s.transporter = .error e' t.transporter := by
  by_cases hnil : s.spanBuffer = []
  · rw [flush_of_nil hnil] at hrun
    cases hrun
  · rw [flush_of_ne_nil hnil] at hrun
    cases hemit : (L.emitBatch ⟨s.process, s.spanBuffer⟩).run s.transporter with
    | ok u c =>
      rw [hemit] at hrun
      cases hrun
    | error e' c =>
      rw [hemit] at hrun
      cases hrun
      refine ⟨rfl, ?_, e', rfl⟩
      have hpos : (0 : ℤ) < s.spanBuffer.length :=
        Int.natCast_pos.mpr (List.length_pos_iff.mpr hnil)
      cases e' <;> exact hpos

lemma append_failed (hrun : (append L span).run s = .error e t) : 0 < e.numFailed := by
  rw [append_run rfl rfl rfl] at hrun
  generalize (s.setProcess L span).addBytes _ = q at hrun
  split_ifs at hrun with hlarge hlt heq
  · cases hrun
    exact Int.one_pos
  · exact (flush_error hrun).2.1
  · cases hflush : (flush L).run q with
    | ok m r =>
      rw [hflush] at hrun
      cases hrun
    | error e' r =>
      rw [hflush] at hrun
      cases hrun
      exact (flush_error hflush).2.1

/-! ### What has been sent -/

section

variable (K : SentBatches L.toTransport)

/-- The spans of the batches that have been sent. -/
def sentSpans (s : ThriftSender Tag Span σ) : List Span :=
  (K.batches s.transporter).flatMap (·.spans)

/-- The spans that have been sent, or are to be sent. -/
def keptSpans (s : ThriftSender Tag Span σ) : List Span := sentSpans K s ++ s.spanBuffer

lemma sentSpans_congr (h : t.transporter = s.transporter) : sentSpans K t = sentSpans K s := by
  rw [sentSpans, sentSpans, h]

lemma keptSpans_of_nil (h : s.spanBuffer = []) : keptSpans K s = sentSpans K s := by
  rw [keptSpans, h, List.append_nil]

lemma keptSpans_congr (h : t.transporter = s.transporter) (hbuffer : t.spanBuffer = s.spanBuffer) :
    keptSpans K t = keptSpans K s := by
  rw [keptSpans, keptSpans, sentSpans_congr K h, hbuffer]

lemma keptSpans_pushBack (h : t.transporter = s.transporter)
    (hbuffer : t.spanBuffer = s.spanBuffer ++ [span]) :
    keptSpans K t = keptSpans K s ++ [span] := by
  rw [keptSpans, keptSpans, sentSpans_congr K h, hbuffer, List.append_assoc]

/-- A flush that returns has sent the buffer. -/
lemma sentSpans_flush_ok (hrun : (flush L).run s = .ok n t) :
    sentSpans K t = keptSpans K s ∧ t.spanBuffer = [] ∧ n = s.spanBuffer.length := by
  by_cases hnil : s.spanBuffer = []
  · rw [flush_of_nil hnil] at hrun
    cases hrun
    exact ⟨by rw [keptSpans, hnil, List.append_nil], hnil, by rw [hnil]; rfl⟩
  · rw [flush_of_ne_nil hnil] at hrun
    cases hemit : (L.emitBatch ⟨s.process, s.spanBuffer⟩).run s.transporter with
    | ok u c =>
      rw [hemit] at hrun
      cases hrun
      refine ⟨?_, rfl, rfl⟩
      have hsent := K.emit_ok _ _ _ _ hemit
      simp only [sentSpans, keptSpans, setTransporter, resetBuffers, hsent, List.flatMap_append,
        List.flatMap_singleton]
    | error e c =>
      rw [hemit] at hrun
      cases hrun

/-- An append that returns keeps its span, and has sent as many spans as it says. -/
lemma append_ok (hrun : (append L span).run s = .ok n t) :
    keptSpans K t = keptSpans K s ++ [span] ∧ sentSpans K s <+: sentSpans K t ∧
      ((sentSpans K t).length : ℤ) = (sentSpans K s).length + n := by
  rw [append_run rfl rfl rfl] at hrun
  generalize calcSizeOfSerializedThrift (L.spanSize span) = size at hrun
  generalize hq : (s.setProcess L span).addBytes size = q at hrun
  have htransporter : q.transporter = s.transporter := by simp [← hq]
  have hbuffer : q.spanBuffer = s.spanBuffer := by simp [← hq]
  have hkept : keptSpans K (q.pushBack span) = keptSpans K s ++ [span] :=
    keptSpans_pushBack K htransporter (by simp [hbuffer])
  split_ifs at hrun with hlarge hlt heq
  · -- there is room in the buffer
    cases hrun
    have hsent : sentSpans K (q.pushBack span) = sentSpans K s := sentSpans_congr K htransporter
    refine ⟨hkept, ?_, ?_⟩
    · rw [hsent]
    · rw [hsent, add_zero]
  · -- the buffer is full with the span
    obtain ⟨hsent, hnil, rfl⟩ := sentSpans_flush_ok K hrun
    rw [hkept] at hsent
    refine ⟨by rw [keptSpans_of_nil K hnil, hsent], ?_, ?_⟩
    · rw [hsent, keptSpans, List.append_assoc]
      exact List.prefix_append _ _
    · rw [hsent]
      simp [keptSpans, hbuffer]
  · -- the buffer is full without the span
    cases hflush : (flush L).run q with
    | ok m r =>
      rw [hflush] at hrun
      cases hrun
      obtain ⟨hsent, hnil, rfl⟩ := sentSpans_flush_ok K hflush
      have hsent' : sentSpans K ((r.pushBack span).startBytes size) = keptSpans K s :=
        (sentSpans_congr K (by simp)).trans (hsent.trans (keptSpans_congr K htransporter hbuffer))
      refine ⟨?_, ?_, ?_⟩
      · rw [keptSpans, hsent', spanBuffer_startBytes, spanBuffer_pushBack, hnil]
        rfl
      · rw [hsent', keptSpans]
        exact List.prefix_append _ _
      · rw [hsent', keptSpans, hbuffer, List.length_append]
        push_cast
        rfl
    | error e r =>
      rw [hflush] at hrun
      cases hrun

/-- What a `ThriftSender` sends. -/
def sending : Sending (sender L) where
  kept := keptSpans K
  sent := sentSpans K
  sent_prefix s := List.prefix_append _ _
  append_ok span s n t hrun := append_ok K hrun
  append_failed span s e t hrun := append_failed hrun
  flush_ok s n t hrun := by
    obtain ⟨hsent, hnil, rfl⟩ := sentSpans_flush_ok K hrun
    refine ⟨(keptSpans_of_nil K hnil).trans hsent, hsent, ?_⟩
    rw [hsent, keptSpans, List.length_append]
    push_cast
    rfl
  flush_failed s e t hrun := (flush_error hrun).2.1

end

section

variable (K : SentUnlessThrown L.toTransport)

/-- A flush that throws has sent nothing. -/
lemma sentSpans_flush_error (hrun : (flush L).run s = .error e t) :
    sentSpans K.toSentBatches t = sentSpans K.toSentBatches s := by
  obtain ⟨-, -, e', hemit⟩ := flush_error hrun
  rw [sentSpans, sentSpans, K.emit_error _ _ _ _ hemit]

/-- An append that throws has sent nothing. It loses its span, unless that is in the buffer. -/
lemma append_error (hrun : (append L span).run s = .error e t) :
    (keptSpans K.toSentBatches t = keptSpans K.toSentBatches s ∨
        keptSpans K.toSentBatches t = keptSpans K.toSentBatches s ++ [span]) ∧
      sentSpans K.toSentBatches t = sentSpans K.toSentBatches s := by
  rw [append_run rfl rfl rfl] at hrun
  have htransporter : (s.setProcess L span).transporter = s.transporter := transporter_setProcess
  have hbuffer : (s.setProcess L span).spanBuffer = s.spanBuffer := spanBuffer_setProcess
  generalize s.setProcess L span = p at hrun htransporter hbuffer
  generalize calcSizeOfSerializedThrift (L.spanSize span) = size at hrun
  generalize hq : p.addBytes size = q at hrun
  have hqtransporter : q.transporter = s.transporter := by rw [← hq, transporter_addBytes,
    htransporter]
  have hqbuffer : q.spanBuffer = s.spanBuffer := by rw [← hq, spanBuffer_addBytes, hbuffer]
  split_ifs at hrun with hlarge hlt heq
  · -- the span is too large
    cases hrun
    exact ⟨.inl (keptSpans_congr _ htransporter hbuffer), sentSpans_congr _ htransporter⟩
  · -- the buffer is full with the span
    have hsent := (sentSpans_flush_error K hrun).trans (sentSpans_congr _ hqtransporter)
    refine ⟨.inr ?_, hsent⟩
    rw [keptSpans, keptSpans, hsent, (flush_error hrun).1, spanBuffer_pushBack, hqbuffer,
      List.append_assoc]
  · -- the buffer is full without the span
    cases hflush : (flush L).run q with
    | ok m r =>
      rw [hflush] at hrun
      cases hrun
    | error e' r =>
      rw [hflush] at hrun
      cases hrun
      have hsent := (sentSpans_flush_error K hflush).trans (sentSpans_congr _ hqtransporter)
      refine ⟨.inl ?_, hsent⟩
      rw [keptSpans, keptSpans, hsent, (flush_error hflush).1, hqbuffer]

/-- A reporter can rely on a `ThriftSender`. -/
def delivery : Delivery (sender L) where
  toSending := sending K.toSentBatches
  append_error span s e t hrun := append_error K hrun
  flush_error s e t hrun := by
    have hsent := sentSpans_flush_error K hrun
    refine ⟨?_, hsent⟩
    change keptSpans _ t = keptSpans _ s
    rw [keptSpans, hsent, (flush_error hrun).1, keptSpans]

/-- Whatever is called, and whatever a transport throws that has sent nothing then: the spans on the
wire and then those in the buffer are spans that have been appended, in their order and each of
them once, and all of them if no call has thrown; and the calls have returned as many as are on the
wire. -/
theorem sentSpans_attempts (transporter : σ) (calls : List (Call Span)) :
    let r := attempts (sender L).call { transporter := transporter } calls
    (∃ spans, spans.Sublist (appended calls) ∧
      (K.batches r.2.transporter).flatMap (·.spans) ++ r.2.spanBuffer =
        (K.batches transporter).flatMap (·.spans) ++ spans ∧
      ((∀ result ∈ r.1, ∃ n, result = .ok n) → spans = appended calls)) ∧
    (((K.batches r.2.transporter).flatMap (·.spans)).length : ℤ) =
      ((K.batches transporter).flatMap (·.spans)).length + returned r.1 := by
  obtain ⟨⟨spans, hsub, hkept, hall⟩, hlength⟩ :=
    (delivery K).attempts_cases calls ({ transporter := transporter } : ThriftSender Tag Span σ)
  have hstart : keptSpans K.toSentBatches
      ({ transporter := transporter } : ThriftSender Tag Span σ) =
    (K.batches transporter).flatMap (·.spans) := keptSpans_of_nil _ rfl
  refine ⟨⟨spans, hsub, ?_, hall⟩, hlength⟩
  rw [← hstart]
  exact hkept

/-- Two spans that do not fit into one packet. -/
theorem sentSpans_attempts_nat :
    let r := attempts (sender UDPTransporter.natLink).call { transporter := [] }
      [.append 40, .append 30, .flush]
    (∃ spans, spans.Sublist [40, 30] ∧
      r.2.transporter.flatMap (·.spans) ++ r.2.spanBuffer = [] ++ spans ∧
      ((∀ result ∈ r.1, ∃ n, result = .ok n) → spans = [40, 30])) ∧
    ((r.2.transporter.flatMap (·.spans)).length : ℤ) = (0 : ℕ) + returned r.1 :=
  sentSpans_attempts UDPTransporter.natSent [] [.append 40, .append 30, .flush]

end

/-! ### Outages -/

/-- A span for which the buffer is full is lost if the transport throws. It is not what the
exception counts, and its size stays in the count of bytes. -/
lemma append_outage (hout : ∀ b c, Throws (L.emitBatch b) c) (hne : s.spanBuffer ≠ [])
    (hname : s.process.serviceName ≠ "") {size : ℤ}
    (hsize : calcSizeOfSerializedThrift (L.spanSize span) = size) (hle : size ≤ s.maxSpanBytes)
    (hfull : s.maxSpanBytes < (s.addBytes size).byteBufferSize) :
    ∃ what c, (append L span).run s =
      .error ⟨what, s.spanBuffer.length⟩ ((s.addBytes size).setTransporter c) := by
  have hset : s.setProcess L span = s := if_neg hname
  obtain ⟨e, c, hemit⟩ := hout ⟨s.process, s.spanBuffer⟩ s.transporter
  generalize hq : s.addBytes size = q at hfull
  have hmax : q.maxSpanBytes = s.maxSpanBytes := by rw [← hq, maxSpanBytes_addBytes]
  have hflush : (flush L).run q =
      .error (couldNotSend s.spanBuffer.length e) (q.setTransporter c) := by
    have hrun := flush_of_ne_nil (L := L) (s := q) (by rwa [← hq])
    rw [← hq, spanBuffer_addBytes, transporter_addBytes, process_addBytes, hemit, hq] at hrun
    exact hrun
  refine ⟨(couldNotSend s.spanBuffer.length e).what, c, ?_⟩
  rw [append_run hset hsize hq, if_neg (Int.not_lt.mpr hle), if_neg (by omega),
    if_neg (by omega), hflush]
  cases e <;> rfl

/-- What an outage leaves of the state when such a span comes and the count does not overflow. -/
lemma append_lost (hout : ∀ b c, Throws (L.emitBatch b) c) (hne : s.spanBuffer ≠ [])
    (hname : s.process.serviceName ≠ "") (hspan : (L.spanSize span : ℤ) ≤ s.maxSpanBytes)
    (hfull : s.maxSpanBytes < s.byteBufferSize + L.spanSize span)
    (hint : s.byteBufferSize + L.spanSize span < 2 ^ 31) :
    ∃ what t, attempt ((sender L).call (.append span)) s =
        (.error ⟨what, s.spanBuffer.length⟩, t) ∧
      t.spanBuffer = s.spanBuffer ∧ t.process = s.process ∧ t.maxSpanBytes = s.maxSpanBytes ∧
      t.byteBufferSize = s.byteBufferSize + L.spanSize span ∧ t.overflowed = s.overflowed := by
  have hsize : calcSizeOfSerializedThrift (L.spanSize span) = L.spanSize span :=
    toInt_natCast (by omega)
  have hover : overflows (s.byteBufferSize + L.spanSize span) = false :=
    overflows_of_lt (by omega) hint
  obtain ⟨hbytes, hsame⟩ := addBytes_of_overflows hover
  obtain ⟨what, c, hrun⟩ := append_outage hout hne hname hsize hspan (hbytes ▸ hfull)
  refine ⟨what, (s.addBytes (L.spanSize span)).setTransporter c, ?_, ?_, ?_, ?_, ?_, ?_⟩
  · change attempt (append L span) s = _
    rw [attempt, hrun]
  · rw [spanBuffer_setTransporter, spanBuffer_addBytes]
  · rw [process_setTransporter, process_addBytes]
  · rw [maxSpanBytes_setTransporter, maxSpanBytes_addBytes]
  · rw [byteBufferSize_setTransporter, hbytes]
  · rw [overflowed_setTransporter, hsame]

/-- The count overflows with a span that takes it past the largest `int`. -/
lemma append_overflows (hname : s.process.serviceName ≠ "")
    (hspan : (L.spanSize span : ℤ) ≤ s.maxSpanBytes) (hmax : s.maxSpanBytes < 2 ^ 31)
    (hbytes : 2 ^ 31 ≤ s.byteBufferSize + L.spanSize span) :
    (after ((sender L).call (.append span)) s).overflowed = true := by
  by_contra hover
  rw [Bool.not_eq_true] at hover
  have hset : s.setProcess L span = s := if_neg hname
  have hsize : calcSizeOfSerializedThrift (L.spanSize span) = L.spanSize span :=
    toInt_natCast (by omega)
  have hadd := (overflowed_of_append hset hsize rfl hover).2 (Int.not_lt.mpr hspan)
  have hsum : overflows (s.byteBufferSize + L.spanSize span) = false :=
    (Bool.or_eq_false_iff.mp hadd).2
  rw [overflows_of_le hbytes] at hsum
  cases hsum

/-- As long as the transport throws, all the spans for which the buffer is full are lost; every
exception counts the spans of the buffer, which are kept; and the count of bytes grows by the size
of every span that is lost, until a span takes it past the largest `int`, which is an overflow. -/
theorem attempts_outage (hout : ∀ b c, Throws (L.emitBatch b) c) (hne : s.spanBuffer ≠ [])
    (hname : s.process.serviceName ≠ "") (hmax : s.maxSpanBytes < 2 ^ 31) (spans : List Span)
    (hspans : ∀ span ∈ spans, (L.spanSize span : ℤ) ≤ s.maxSpanBytes ∧
      s.maxSpanBytes < s.byteBufferSize + L.spanSize span)
    (hint : s.byteBufferSize + ((spans.map L.spanSize).sum : ℕ) < 2 ^ 31) :
    let r := attempts (sender L).call s (spans.map .append)
    (∀ result ∈ r.1, ∃ what, result = .error ⟨what, s.spanBuffer.length⟩) ∧
      r.2.spanBuffer = s.spanBuffer ∧
      r.2.byteBufferSize = s.byteBufferSize + ((spans.map L.spanSize).sum : ℕ) ∧
      r.2.overflowed = s.overflowed ∧
      ∀ span, (L.spanSize span : ℤ) ≤ s.maxSpanBytes →
        2 ^ 31 ≤ r.2.byteBufferSize + L.spanSize span →
        (after ((sender L).call (.append span)) r.2).overflowed = true := by
  induction spans generalizing s with
  | nil =>
    exact ⟨fun _ h => absurd h List.not_mem_nil, rfl, (add_zero _).symm, rfl,
      fun span hspan hbytes => append_overflows hname hspan hmax hbytes⟩
  | cons span spans ih =>
    obtain ⟨hspan, hfull⟩ := hspans span List.mem_cons_self
    rw [List.map_cons, List.sum_cons, Int.natCast_add] at hint
    obtain ⟨what, q, hattempt, hqbuffer, hqprocess, hqmax, hqbytes, hqover⟩ :=
      append_lost hout hne hname hspan hfull (by omega)
    -- the count has grown, so that the buffer is full for the spans that follow
    have hrest : ∀ x ∈ spans, (L.spanSize x : ℤ) ≤ q.maxSpanBytes ∧
        q.maxSpanBytes < q.byteBufferSize + L.spanSize x := by
      intro x hx
      obtain ⟨hx, hlt⟩ := hspans x (List.mem_cons_of_mem _ hx)
      rw [hqmax, hqbytes]
      exact ⟨hx, by omega⟩
    obtain ⟨hresults, hbuffer, hcount, hkept, hlast⟩ := ih (s := q) (hqbuffer ▸ hne)
      (hqprocess ▸ hname) (hqmax ▸ hmax) hrest (by omega)
    simp only [List.map_cons, attempts, hattempt]
    refine ⟨?_, hbuffer.trans hqbuffer, ?_, hkept.trans hqover, ?_⟩
    · rintro result (_ | ⟨_, hresult⟩)
      · exact ⟨what, rfl⟩
      · rw [← hqbuffer]
        exact hresults result hresult
    · rw [hcount, hqbytes, List.sum_cons, Int.natCast_add, add_assoc]
    · rw [← hqmax]
      exact hlast

/-- A buffer of one span, and two spans that come while the transport throws. -/
theorem attempts_outage_nat :
    let L : Link Unit ℕ Unit := ⟨UDPTransporter.natWire, ⟨100, fun _ => throw .other⟩⟩
    let s : ThriftSender Unit ℕ Unit := ⟨(), 60, 40, [30], ⟨"service", []⟩, 10, false⟩
    let r := attempts (sender L).call s [.append 25, .append 50]
    (∀ result ∈ r.1, ∃ what, result = .error ⟨what, 1⟩) ∧ r.2.spanBuffer = [30] ∧
      r.2.byteBufferSize = 115 ∧ r.2.overflowed = false := by
  intro L s r
  obtain ⟨hresults, hbuffer, hbytes, hover, -⟩ := attempts_outage (L := L) (s := s)
    (fun _ _ => ⟨_, _, rfl⟩) (by decide) (by decide) (by decide) [25, 50]
    (by decide) (by decide)
  exact ⟨hresults, hbuffer, hbytes, hover⟩

end ThriftSender

end Reporting
