import CppArchitecture.Tracing.Propagation

/-!
# The headers of the W3C

The context of a span is carried in the header `traceparent`, and the state of its trace in
`tracestate`. Neither the parent's number nor the baggage is carried. The value of `tracestate` is
decoded where it is read from HTTP headers, though it has not been encoded.
-/

namespace Tracing

open Core

namespace W3CPropagator

open SpanContext (Reader expect segment returned)

def kW3CTraceParentHeaderName : List UInt8 := text "traceparent"

def kW3CTraceStateHeaderName : List UInt8 := text "tracestate"

def readTraceID (s : IStream UInt8) : TraceID × IStream UInt8 :=
  let (buffer, t) := readSegment 32 45 s
  if buffer = [] ∨ buffer.length ≠ 32 then ({}, t)
  else
    (⟨decodeHex 64 (buffer.take (buffer.length - 16)),
      decodeHex 64 (buffer.drop (buffer.length - 16))⟩, t)

/-- The body of `readTraceParent`. -/
def readTraceParent : Reader SpanContext := do
  expect 48
  expect 48
  expect 45
  let traceID ← modifyGet readTraceID
  if ¬ traceID.isValid then throw ()
  expect 45
  let spanID ← segment 16 45
  expect 45
  let flags ← modifyGet (readSegment 2 45)
  if flags = [] ∨ flags.length ≠ 2 then throw ()
  modify IStream.clear
  return {
    traceID := traceID
    spanID := decodeHex 64 spanID
    flags := decodeHex 8 flags }

def writeTraceID (traceID : TraceID) : List UInt8 :=
  hexPadded 16 traceID.high.toNat ++ hexPadded 16 traceID.low.toNat

def writeTraceParent (ctx : SpanContext) : List UInt8 :=
  48 :: 48 :: 45 :: (writeTraceID ctx.traceID ++ 45 :: (hexPadded 16 ctx.spanID.toNat ++ 45 ::
    hexPadded 2 ctx.flags.toNat))

variable (p : Propagator)

/-- The function that `doExtract` gives to `ForeachKey`, for a header whose name is normalized. -/
def readHeader (s : SpanContext × List UInt8) (h : Header) : Option (SpanContext × List UInt8) :=
  if h.1 = kW3CTraceParentHeaderName then
    let (ctx, iss) := returned readTraceParent ⟨p.decodeValue h.2, true⟩
    if ¬ iss.good ∨ ctx = {} then none else some (ctx, s.2)
  else if h.1 = kW3CTraceStateHeaderName then some (s.1, p.decodeValue h.2)
  else some s

/-- The context, and how many decoding errors there are. -/
def doExtract (reader : List Header) : SpanContext × ℕ :=
  match reader.foldlM (fun s h => readHeader p s (p.normalizeKey h.1, h.2)) ({}, []) with
  | none => ({}, 1)
  | some (ctx, traceState) =>
    ({ traceID := ctx.traceID, spanID := ctx.spanID, parentID := ctx.parentID, flags := ctx.flags,
       traceState := traceState }, 0)

/-- The headers that are set. -/
def doInject (ctx : SpanContext) : List Header :=
  (kW3CTraceParentHeaderName, writeTraceParent ctx) ::
    if ctx.traceState ≠ [] then [(kW3CTraceStateHeaderName, ctx.traceState)] else []

def extract (reader : List Header) : SpanContext × ℕ := p.extract (doExtract p) reader

def inject (ctx : SpanContext) : List Header := doInject ctx

variable {p} {xs r str : List UInt8} {ctx : SpanContext} {s t : IStream UInt8}
  {reader : List Header} {value : List UInt8}

/-! ### The trace parent -/

/-- The digits of a trace ID, as many as there must be. -/
def ofDigits (str : List UInt8) : TraceID :=
  ⟨decodeHex 64 (str.take 16), decodeHex 64 (str.drop 16)⟩

lemma readTraceID_run (h : IsSegment 32 str) (hlength : str.length = 32) :
    (modifyGet readTraceID : Reader TraceID).run ⟨str ++ 45 :: r, true⟩ =
      .ok (ofDigits str) ⟨45 :: r, true⟩ := by
  have hread := readSegment_delim (r := r) h.isHex h.length_le (show isHex 45 = false from rfl)
  refine run_modifyGet_eq_ok.mpr ?_
  rw [readTraceID, hread]
  simp only [hlength]
  exact if_neg (by simp [h.ne_nil])

/-- The texts that a trace parent is read from, and what is left of them. -/
def Accepts (xs : List UInt8) (ctx : SpanContext) (r : List UInt8) : Prop :=
  ∃ a b d, xs = 48 :: 48 :: 45 :: (a ++ 45 :: (b ++ 45 :: (d ++ r))) ∧
    IsSegment 32 a ∧ a.length = 32 ∧ IsSegment 16 b ∧ IsSegment 2 d ∧ d.length = 2 ∧
    (ofDigits a).isValid = true ∧
    ctx = { traceID := ofDigits a, spanID := decodeHex 64 b, flags := decodeHex 8 d }

/-- A trace ID that is valid is read from a segment of 32 digits. -/
lemma readTraceID_eq_ok {id : TraceID} (hid : id.isValid = true)
    (h : (modifyGet readTraceID : Reader TraceID).run s = .ok id t) :
    ∃ str, (segment 32 45).run s = .ok str t ∧ str.length = 32 ∧ ofDigits str = id := by
  cases hread : readSegment 32 45 s with
  | mk buffer u =>
    have hreadTraceID : readTraceID s = if buffer = [] ∨ buffer.length ≠ 32 then ({}, u)
        else (⟨decodeHex 64 (buffer.take (buffer.length - 16)),
          decodeHex 64 (buffer.drop (buffer.length - 16))⟩, u) := by
      rw [readTraceID, hread]
    by_cases hbuffer : buffer = [] ∨ buffer.length ≠ 32
    · rw [run_modifyGet_eq_ok.mpr (hreadTraceID.trans (if_pos hbuffer))] at h
      cases h
      cases hid
    · rw [run_modifyGet_eq_ok.mpr (hreadTraceID.trans (if_neg hbuffer))] at h
      obtain ⟨hnil, hlength⟩ := not_or.mp hbuffer
      rw [not_not] at hlength
      cases h
      exact ⟨buffer, (SpanContext.segment_run hread).trans (if_neg hnil), hlength,
        by rw [ofDigits, hlength]⟩

lemma readTraceParent_eq_ok_iff :
    readTraceParent.run ⟨xs, true⟩ = .ok ctx t ↔ ∃ r, Accepts xs ctx r ∧ t = ⟨r, true⟩ := by
  constructor
  · intro h
    obtain ⟨_, _, hzero₁, h₁⟩ := run_bind_eq_ok.mp h
    obtain ⟨_, _, hzero₂, h₂⟩ := run_bind_eq_ok.mp h₁
    obtain ⟨_, _, hdash, h₃⟩ := run_bind_eq_ok.mp h₂
    obtain ⟨r₁, hxs, rfl⟩ := SpanContext.expect_eq_ok_iff.mp hzero₁
    obtain ⟨r₂, hr₁, rfl⟩ := SpanContext.expect_eq_ok_iff.mp hzero₂
    obtain ⟨r₃, hr₂, rfl⟩ := SpanContext.expect_eq_ok_iff.mp hdash
    cases hxs
    cases hr₁
    cases hr₂
    -- behind the version
    obtain ⟨id, _, hid, h₄⟩ := run_bind_eq_ok.mp h₃
    by_cases hvalid : id.isValid = true
    · obtain ⟨a, htraceID, halength, rfl⟩ := readTraceID_eq_ok hvalid hid
      rw [if_neg (not_not.mpr hvalid)] at h₄
      obtain ⟨_, _, hdash₁, h₅⟩ := run_bind_eq_ok.mp h₄
      obtain ⟨b, _, hspanID, h₆⟩ := run_bind_eq_ok.mp h₅
      obtain ⟨_, _, hdash₂, h₇⟩ := run_bind_eq_ok.mp h₆
      obtain ⟨d, u, hflags, h₈⟩ := run_bind_eq_ok.mp h₇
      by_cases hd : d = [] ∨ d.length ≠ 2
      · -- the flags need two digits
        rw [if_pos hd] at h₈
        cases h₈
      · rw [if_neg hd] at h₈
        obtain ⟨hnil, hlength⟩ := not_or.mp hd
        rw [not_not] at hlength
        obtain ⟨hctx, ht⟩ := EStateM.Result.ok.inj h₈
        have hdigits := SpanContext.segment_run (run_modifyGet_eq_ok.mp hflags)
        rw [if_neg hnil] at hdigits
        obtain ⟨ha, r₁, rfl, rfl⟩ := SpanContext.field_eq_ok rfl htraceID hdash₁
        obtain ⟨hb, r₂, rfl, rfl⟩ := SpanContext.field_eq_ok rfl hspanID hdash₂
        obtain ⟨hd, r, rfl, hfollows⟩ := (SpanContext.segment_eq_ok_iff rfl).mp hdigits
        refine ⟨r, ⟨a, b, d, rfl, ha, halength, hb, hd, hlength, hvalid, hctx.symm⟩, ?_⟩
        rw [← ht, hfollows.clear_eq]
    · rw [if_pos hvalid] at h₄
      cases h₄
  · rintro ⟨r, ⟨a, b, d, rfl, ha, halength, hb, hd, hdlength, hvalid, rfl⟩, rfl⟩
    have hflags : readSegment 2 45 ⟨d ++ r, true⟩ = (d, ⟨r, true⟩) :=
      readSegment_full hd.isHex hdlength
    rw [readTraceParent, run_bind_of_ok SpanContext.expect_run,
      run_bind_of_ok SpanContext.expect_run, run_bind_of_ok SpanContext.expect_run,
      run_bind_of_ok (readTraceID_run ha halength), if_neg (not_not.mpr hvalid),
      run_bind_of_ok SpanContext.expect_run, run_bind_of_ok (SpanContext.field_run hb rfl),
      run_bind_of_ok SpanContext.expect_run, run_bind_of_ok (run_modifyGet_eq_ok.mpr hflags),
      if_neg (by simp [hd.ne_nil, hdlength])]
    rfl

lemma Accepts.isValid (h : Accepts xs ctx r) : ctx.traceID.isValid = true := by
  obtain ⟨a, b, d, -, -, -, -, -, -, hvalid, rfl⟩ := h
  exact hvalid

lemma length_writeTraceID (id : TraceID) : (writeTraceID id).length = 32 := by
  rw [writeTraceID, List.length_append, length_hexPadded (by decide) id.high.isLt,
    length_hexPadded (by decide) id.low.isLt]

lemma isSegment_writeTraceID {id : TraceID} : IsSegment 32 (writeTraceID id) := by
  refine ⟨fun hnil => ?_, (length_writeTraceID id).le, fun c hc => ?_⟩
  · have hlength := length_writeTraceID id
    rw [hnil] at hlength
    cases hlength
  · rcases List.mem_append.mp hc with hc | hc <;> exact isHex_of_mem_hexPadded hc

lemma ofDigits_writeTraceID {id : TraceID} : ofDigits (writeTraceID id) = id := by
  have hhigh := length_hexPadded (by decide : 0 < 16) id.high.isLt
  rw [ofDigits, writeTraceID, List.take_left' hhigh, List.drop_left' hhigh, decodeHex_hexPadded,
    decodeHex_hexPadded]
  simp

/-- The part of a context that is written. -/
def written (ctx : SpanContext) : SpanContext :=
  { traceID := ctx.traceID, spanID := ctx.spanID, flags := ctx.flags }

lemma accepts_writeTraceParent (hvalid : ctx.traceID.isValid = true) :
    Accepts (writeTraceParent ctx) (written ctx) [] := by
  refine ⟨writeTraceID ctx.traceID, hexPadded 16 ctx.spanID.toNat, hexPadded 2 ctx.flags.toNat, ?_,
    isSegment_writeTraceID, length_writeTraceID ctx.traceID,
    isSegment_hexPadded le_rfl (by decide) ctx.spanID.isLt,
    isSegment_hexPadded le_rfl (by decide) ctx.flags.isLt,
    length_hexPadded (by decide) ctx.flags.isLt, ?_, ?_⟩
  · rw [List.append_nil]
    rfl
  · rwa [ofDigits_writeTraceID]
  · rw [ofDigits_writeTraceID, decodeHex_hexPadded, decodeHex_hexPadded]
    simp [written]

lemma returned_writeTraceParent_of_not_valid (hvalid : ¬ ctx.traceID.isValid = true) :
    (returned readTraceParent ⟨writeTraceParent ctx, true⟩).1 = {} := by
  rw [returned, readTraceParent, writeTraceParent, run_bind_of_ok SpanContext.expect_run,
    run_bind_of_ok SpanContext.expect_run, run_bind_of_ok SpanContext.expect_run,
    run_bind_of_ok (readTraceID_run isSegment_writeTraceID (length_writeTraceID ctx.traceID)),
    ofDigits_writeTraceID, if_pos hvalid]
  rfl

lemma notMem_writeTraceParent : (37 : UInt8) ∉ writeTraceParent ctx := by
  have hpadded : ∀ {width n}, (37 : UInt8) ∉ hexPadded width n := fun h =>
    Bool.false_ne_true (isHex_of_mem_hexPadded h)
  simp [writeTraceParent, writeTraceID, hpadded]

/-! ### The headers -/

/-- The names of the headers survive that they are normalized, and a text without `%` that it is
decoded. -/
structure Plain (p : Propagator) : Prop where
  trace_parent : p.normalizeKey kW3CTraceParentHeaderName = kW3CTraceParentHeaderName
  trace_state : p.normalizeKey kW3CTraceStateHeaderName = kW3CTraceStateHeaderName
  decode (value : List UInt8) (h : 37 ∉ value) : p.decodeValue value = value

lemma plain_textMap {config : HeadersConfig} : Plain (.textMap config) := ⟨rfl, rfl, fun _ _ => rfl⟩

lemma plain_httpHeaders {config : HeadersConfig} : Plain (.httpHeaders config) where
  trace_parent := (by decide : kW3CTraceParentHeaderName.map tolower = kW3CTraceParentHeaderName)
  trace_state := (by decide : kW3CTraceStateHeaderName.map tolower = kW3CTraceStateHeaderName)
  decode _ h := URI.queryUnescape_of_notMem h

/-- The headers that an extraction looks at. -/
def concerns (p : Propagator) (h : Header) : Bool :=
  h.1 = kW3CTraceParentHeaderName || h.1 = kW3CTraceStateHeaderName ||
    h.1 = p.headerKeys.jaegerDebugHeader

variable {h : Header} {u : SpanContext × List UInt8}

lemma concerns_debug (h : Header) (hdebug : h.1 = p.headerKeys.jaegerDebugHeader) :
    concerns p h = true := by
  simp [concerns, hdebug]

lemma readHeader_other (u : SpanContext × List UInt8) (h : Header)
    (hother : concerns p h = false) : readHeader p u h = some u := by
  simp only [concerns, Bool.or_eq_false_iff, decide_eq_false_iff_not] at hother
  rw [readHeader, if_neg hother.1.1, if_neg hother.1.2]

lemma readHeader_traceState (hname : h.1 = kW3CTraceStateHeaderName) :
    readHeader p u h = some (u.1, p.decodeValue h.2) := by
  rw [readHeader, if_neg (by rw [hname]; decide), if_pos hname]

lemma readHeader_traceParent (hplain : Plain p) (hvalid : ctx.traceID.isValid = true) :
    readHeader p u (kW3CTraceParentHeaderName, writeTraceParent ctx) =
      some (written ctx, u.2) := by
  have hread := SpanContext.returned_of_run
    (readTraceParent_eq_ok_iff.mpr ⟨[], accepts_writeTraceParent hvalid, rfl⟩)
  have hne : written ctx ≠ {} := by
    intro heq
    have hid := congrArg (fun c => c.traceID.isValid) heq
    exact Bool.false_ne_true (hid.symm.trans hvalid)
  rw [readHeader, if_pos rfl, hplain.decode _ notMem_writeTraceParent, hread]
  exact if_neg (not_or.mpr ⟨not_not.mpr rfl, hne⟩)

lemma readHeader_corrupted (hplain : Plain p) (hvalid : ¬ ctx.traceID.isValid = true) :
    readHeader p u (kW3CTraceParentHeaderName, writeTraceParent ctx) = none := by
  rw [readHeader, if_pos rfl, hplain.decode _ notMem_writeTraceParent]
  simp [returned_writeTraceParent_of_not_valid hvalid]

lemma map_normalize_inject (hplain : Plain p) : (inject ctx).map p.normalize = inject ctx := by
  rw [inject, doInject, List.map_cons, Propagator.normalize, hplain.trace_parent]
  split_ifs
  · rw [List.map_singleton, Propagator.normalize, hplain.trace_state]
  · rfl

/-- The headers that are set come with the trace parent before or after the trace state. -/
lemma cases_of_perm {L : List Header} (hperm : L.Perm (inject ctx)) :
    (L = [(kW3CTraceParentHeaderName, writeTraceParent ctx)] ∧ ctx.traceState = []) ∨
      L = [(kW3CTraceParentHeaderName, writeTraceParent ctx),
        (kW3CTraceStateHeaderName, ctx.traceState)] ∨
      L = [(kW3CTraceStateHeaderName, ctx.traceState),
        (kW3CTraceParentHeaderName, writeTraceParent ctx)] := by
  rw [inject, doInject] at hperm
  split_ifs at hperm with hstate
  · rw [← List.map_id [(kW3CTraceStateHeaderName, ctx.traceState)]] at hperm
    obtain ⟨before, after, rfl, hrest⟩ := exists_of_perm_cons_map Function.injective_id hperm
    rcases List.append_eq_singleton_iff.mp (List.perm_singleton.mp hrest) with
      ⟨rfl, rfl⟩ | ⟨rfl, rfl⟩
    · exact .inr (.inl rfl)
    · exact .inr (.inr rfl)
  · exact .inl ⟨List.perm_singleton.mp hperm, not_not.mp hstate⟩

/-- There is no debug ID among the headers that have been set. -/
lemma debugID_of_perm (hparent : p.headerKeys.jaegerDebugHeader ≠ kW3CTraceParentHeaderName)
    (hstate : p.headerKeys.jaegerDebugHeader ≠ kW3CTraceStateHeaderName)
    (h : ((reader.map p.normalize).filter (concerns p)).Perm (inject ctx)) :
    p.debugID reader = [] := by
  refine Propagator.debugID_eq_nil concerns_debug fun header hheader => ?_
  rcases cases_of_perm h with ⟨heq, -⟩ | heq | heq
  all_goals
    rw [heq] at hheader
    simp only [List.mem_cons, List.not_mem_nil, or_false] at hheader
    rcases hheader with rfl | rfl
    all_goals first | exact hparent.symm | exact hstate.symm

/-- An extraction depends on the headers that it looks at. -/
lemma doExtract_eq : doExtract p reader =
    match ((reader.map p.normalize).filter (concerns p)).foldlM (readHeader p) ({}, []) with
    | none => ({}, 1)
    | some (ctx, traceState) =>
      ({ traceID := ctx.traceID, spanID := ctx.spanID, parentID := ctx.parentID,
         flags := ctx.flags, traceState := traceState }, 0) := by
  rw [doExtract, Propagator.foldlM_filter readHeader_other, List.foldlM_map]
  rfl

/-- What is read of a context with a valid trace ID. -/
lemma extract_of_carries (hplain : Plain p)
    (hparent : p.headerKeys.jaegerDebugHeader ≠ kW3CTraceParentHeaderName)
    (hstate : p.headerKeys.jaegerDebugHeader ≠ kW3CTraceStateHeaderName)
    (hvalid : ctx.traceID.isValid = true) (h : p.Carries (concerns p) (inject ctx) reader) :
    extract p reader = ({ written ctx with traceState := p.decodeValue ctx.traceState }, 0) := by
  rw [Propagator.Carries, map_normalize_inject hplain] at h
  have htraceParent := fun u => readHeader_traceParent (u := u) hplain hvalid
  have htraceState : ∀ u, readHeader p u (kW3CTraceStateHeaderName, ctx.traceState) =
      some (u.1, p.decodeValue ctx.traceState) := fun u => readHeader_traceState rfl
  have hfold : ((reader.map p.normalize).filter (concerns p)).foldlM (readHeader p) ({}, []) =
      some (written ctx, p.decodeValue ctx.traceState) := by
    -- alone, or with the trace state behind or before it
    rcases cases_of_perm h with ⟨heq, hnone⟩ | heq | heq
    · rw [heq, hnone, hplain.decode [] List.not_mem_nil, List.foldlM_cons, htraceParent]
      rfl
    · rw [heq, List.foldlM_cons, htraceParent, Option.bind_eq_bind, Option.bind_some,
        List.foldlM_cons, htraceState]
      rfl
    · rw [heq, List.foldlM_cons, htraceState, Option.bind_eq_bind, Option.bind_some,
        List.foldlM_cons, htraceParent]
      rfl
  rw [extract, Propagator.extract, debugID_of_perm hparent hstate h, doExtract_eq, hfold,
    Propagator.complete_of_valid (by exact hvalid)]
  rfl

lemma extract_of_not_valid (hplain : Plain p)
    (hparent : p.headerKeys.jaegerDebugHeader ≠ kW3CTraceParentHeaderName)
    (hstate : p.headerKeys.jaegerDebugHeader ≠ kW3CTraceStateHeaderName)
    (hvalid : ¬ ctx.traceID.isValid = true) (h : p.Carries (concerns p) (inject ctx) reader) :
    extract p reader = ({}, 1) := by
  rw [Propagator.Carries, map_normalize_inject hplain] at h
  have hcorrupted := fun u => readHeader_corrupted (u := u) hplain hvalid
  have hfold : ((reader.map p.normalize).filter (concerns p)).foldlM (readHeader p) ({}, []) =
      none := by
    rcases cases_of_perm h with ⟨heq, -⟩ | heq | heq
    · rw [heq, List.foldlM_cons, hcorrupted]
      rfl
    · rw [heq, List.foldlM_cons, hcorrupted]
      rfl
    · rw [heq, List.foldlM_cons, readHeader_traceState rfl, Option.bind_eq_bind, Option.bind_some,
        List.foldlM_cons, hcorrupted]
      rfl
  rw [extract, Propagator.extract, debugID_of_perm hparent hstate h, doExtract_eq, hfold]
  rfl

/-- What is read of the headers that have been set, in any order: neither the parent's number nor
the baggage, and of the state of the trace what a decoding that nobody asked for has left. -/
theorem extract_inject (hplain : Plain p)
    (hparent : p.headerKeys.jaegerDebugHeader ≠ kW3CTraceParentHeaderName)
    (hstate : p.headerKeys.jaegerDebugHeader ≠ kW3CTraceStateHeaderName)
    (h : p.Carries (concerns p) (inject ctx) reader) :
    extract p reader =
      if ctx.traceID.isValid then
        ({ written ctx with traceState := p.decodeValue ctx.traceState }, 0)
      else ({}, 1) := by
  split_ifs with hvalid
  · exact extract_of_carries hplain hparent hstate hvalid h
  · exact extract_of_not_valid hplain hparent hstate hvalid h

/-- What is set is carried. -/
lemma carries_inject (hplain : Plain p) : p.Carries (concerns p) (inject ctx) (inject ctx) := by
  rw [Propagator.Carries, map_normalize_inject hplain, List.filter_eq_self.mpr]
  intro h hh
  rw [inject, doInject] at hh
  rcases List.mem_cons.mp hh with rfl | hh
  · simp [concerns]
  · split_ifs at hh
    · rw [List.mem_singleton.mp hh]
      simp [concerns]
    · cases hh

/-- A blank that was escaped by someone else is not escaped any more. -/
theorem extract_inject_default :
    extract (.httpHeaders default) (inject
      { traceID := ⟨0, 1⟩, spanID := 2, parentID := 3, flags := 1, traceState := [37, 50, 48] }) =
      ({ traceID := ⟨0, 1⟩, spanID := 2, flags := 1, traceState := [32] }, 0) :=
  extract_inject plain_httpHeaders (by decide) (by decide) (carries_inject plain_httpHeaders)

end W3CPropagator

end Tracing
