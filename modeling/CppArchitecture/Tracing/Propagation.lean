import CppArchitecture.Tracing.Propagator
import CppArchitecture.Tracing.TraceContext

/-!
# What one process reads of the context another one has written

The headers that are read are those that were set, in any order, and with names that are the same
once they are normalized. A text map carries a context with a valid trace ID, and its baggage; HTTP
carries it where the keys of the baggage are in lower case and the values outlive the escaping.
-/

namespace Tracing

open Core

variable {p : Propagator} {ctx : SpanContext} {s : SpanContext × StrMap} {t : IStream UInt8}
  {key value : List UInt8} {items reader : List Header}

/-- Names that cannot be taken for each other. -/
structure HeadersConfig.Separate (config : HeadersConfig) : Prop where
  debug_ne : config.traceContextHeaderName ≠ config.jaegerDebugHeader
  trace_context : ¬ config.traceBaggageHeaderPrefix <+: config.traceContextHeaderName
  debug : ¬ config.traceBaggageHeaderPrefix <+: config.jaegerDebugHeader
  baggage : ¬ config.traceBaggageHeaderPrefix <+: config.jaegerBaggageHeader

/-- Names in lower case. -/
structure HeadersConfig.Lower (config : HeadersConfig) : Prop where
  trace_context :
    config.traceContextHeaderName.map tolower = config.traceContextHeaderName
  baggage : config.traceBaggageHeaderPrefix.map tolower = config.traceBaggageHeaderPrefix

lemma HeadersConfig.separate_default : (default : HeadersConfig).Separate := by
  constructor <;> decide

lemma HeadersConfig.lower_default : (default : HeadersConfig).Lower := by
  constructor <;> decide

namespace Propagator

/-- A header, under its normalized name. -/
def normalize (p : Propagator) (h : Header) : Header := (p.normalizeKey h.1, h.2)

/-- The names of the headers survive that they are normalized. -/
structure Normalized (p : Propagator) : Prop where
  trace_context :
    p.normalizeKey p.headerKeys.traceContextHeaderName = p.headerKeys.traceContextHeaderName
  append (key : List UInt8) : p.normalizeKey (p.headerKeys.traceBaggageHeaderPrefix ++ key) =
    p.headerKeys.traceBaggageHeaderPrefix ++ p.normalizeKey key

lemma normalized_textMap (config : HeadersConfig) : (textMap config).Normalized :=
  ⟨rfl, fun _ => rfl⟩

/-- The reader gives the headers that were set, in any order and between any others that do not
concern the propagator. -/
def Carries (p : Propagator) (concerns : Header → Bool) (sent reader : List Header) : Prop :=
  ((reader.map p.normalize).filter concerns).Perm (sent.map p.normalize)

/-- The debug ID of headers among which there is none. -/
lemma debugID_eq_nil {concerns : Header → Bool}
    (hdebug : ∀ h, h.1 = p.headerKeys.jaegerDebugHeader → concerns h = true)
    (h : ∀ h ∈ (reader.map p.normalize).filter concerns,
      h.1 ≠ p.headerKeys.jaegerDebugHeader) : p.debugID reader = [] := by
  have hname : ∀ header ∈ reader, p.normalizeKey header.1 ≠ p.headerKeys.jaegerDebugHeader :=
    fun header hheader heq =>
      h (p.normalize header) (List.mem_filter.mpr
        ⟨List.mem_map_of_mem hheader, hdebug (p.normalize header) heq⟩) heq
  clear h
  rw [debugID]
  induction reader with
  | nil => rfl
  | cons header reader ih =>
    obtain ⟨hheader, hrest⟩ := List.forall_mem_cons.mp hname
    rw [List.foldl_cons, if_neg hheader, ih hrest]

/-- Headers that are passed over need not be there. -/
lemma foldlM_filter {S : Type} {f : S → Header → Option S} {concerns : Header → Bool}
    (hother : ∀ s h, concerns h = false → f s h = some s) {L : List Header} {s : S} :
    (L.filter concerns).foldlM f s = L.foldlM f s := by
  induction L generalizing s with
  | nil => rfl
  | cons h L ih =>
    cases hconcerns : concerns h with
    | false =>
      -- the header is left out, and would have changed nothing
      rw [List.filter_cons_of_neg (by simp [hconcerns]), ih, List.foldlM_cons, hother s h hconcerns]
      rfl
    | true =>
      rw [List.filter_cons_of_pos hconcerns, List.foldlM_cons, List.foldlM_cons]
      congr 1
      funext s
      exact ih

lemma isValid_complete {debugID : List UInt8} :
    (complete debugID ctx).traceID.isValid = ctx.traceID.isValid := by
  by_cases hempty : ¬ ctx.traceID.isValid = true ∧ ctx.baggage = ∅ ∧ debugID = []
  · rw [complete, if_pos hempty, Bool.eq_false_iff.mpr hempty.1]
    rfl
  · rw [complete, if_neg hempty]

lemma complete_of_valid (hvalid : ctx.traceID.isValid = true) :
    complete [] ctx = { ctx with debugID := [] } :=
  if_neg fun hempty => hempty.1 hvalid

end Propagator

namespace JaegerPropagator

/-- The headers that an extraction looks at. -/
def concerns (p : Propagator) (h : Header) : Bool :=
  h.1 = p.headerKeys.traceContextHeaderName || h.1 = p.headerKeys.jaegerBaggageHeader ||
    h.1 = p.headerKeys.jaegerDebugHeader || p.headerKeys.traceBaggageHeaderPrefix.isPrefixOf h.1

/-! ### One header -/

lemma readHeader_traceContext
    (hread : SpanContext.fromStream ⟨p.decodeValue value, true⟩ = (ctx, t))
    (hvalid : ctx.traceID.isValid = true) :
    readHeader p s p.headerKeys.traceContextHeaderName value = some (ctx, s.2) := by
  obtain ⟨r, -, rfl⟩ := SpanContext.read_eq_ok_iff.mp (SpanContext.run_of_returned hread hvalid)
  have hne : ctx ≠ {} := by
    rintro rfl
    cases hvalid
  rw [readHeader, if_pos rfl, hread]
  exact if_neg (not_or.mpr ⟨not_not.mpr rfl, hne⟩)

lemma readHeader_corrupted
    (hread : (SpanContext.fromStream ⟨p.decodeValue value, true⟩).1 = {}) :
    readHeader p s p.headerKeys.traceContextHeaderName value = none := by
  rw [readHeader, if_pos rfl]
  simp [hread]

/-- The header of an item of the baggage. -/
def itemHeader (p : Propagator) (item : Header) : Header :=
  (p.headerKeys.traceBaggageHeaderPrefix ++ item.1, item.2)

lemma itemHeader_ne (hseparate : p.headerKeys.Separate) (item : Header) :
    (itemHeader p item).1 ≠ p.headerKeys.traceContextHeaderName ∧
      (itemHeader p item).1 ≠ p.headerKeys.jaegerBaggageHeader ∧
      (itemHeader p item).1 ≠ p.headerKeys.jaegerDebugHeader := by
  have hne : ∀ {name}, ¬ p.headerKeys.traceBaggageHeaderPrefix <+: name →
      (itemHeader p item).1 ≠ name := fun hname heq => hname (heq ▸ List.prefix_append _ _)
  exact ⟨hne hseparate.trace_context, hne hseparate.baggage, hne hseparate.debug⟩

lemma readHeader_item (hseparate : p.headerKeys.Separate) (item : Header) :
    readHeader p s (itemHeader p item).1 (itemHeader p item).2 =
      some (s.1, s.2.insert item.1 (p.decodeValue item.2)) := by
  obtain ⟨htrace, hbaggage, -⟩ := itemHeader_ne hseparate item
  rw [readHeader, if_neg htrace, if_neg hbaggage, if_pos]
  · simp [itemHeader, removeBaggageKeyPrefix]
  · exact List.isPrefixOf_iff_prefix.mpr (List.prefix_append _ _)

/-! ### All headers -/

lemma foldlM_items (hseparate : p.headerKeys.Separate) :
    (items.map (itemHeader p)).foldlM (fun s h => readHeader p s h.1 h.2) s =
      some (s.1, Table.assignAll s.2 (items.map fun item => (item.1, p.decodeValue item.2))) := by
  induction items generalizing s with
  | nil => rfl
  | cons item items ih =>
    rw [List.map_cons, List.foldlM_cons, readHeader_item hseparate]
    exact ih

lemma itemHeader_injective : (itemHeader p).Injective := by
  intro x y h
  obtain ⟨hname, hvalue⟩ := Prod.mk.inj h
  exact Prod.ext (List.append_cancel_left hname) hvalue

/-- The context of the trace header, and the items of the others. -/
lemma foldlM_of_perm {L : List Header} (hseparate : p.headerKeys.Separate)
    (hread : SpanContext.fromStream ⟨p.decodeValue value, true⟩ = (ctx, t))
    (hvalid : ctx.traceID.isValid = true)
    (hperm : L.Perm ((p.headerKeys.traceContextHeaderName, value) :: items.map (itemHeader p))) :
    ∃ items' : List Header, items'.Perm items ∧
      L.foldlM (fun s h => readHeader p s h.1 h.2) ({}, ∅) =
        some (ctx, Table.assignAll ∅ (items'.map fun item => (item.1, p.decodeValue item.2))) := by
  obtain ⟨before, after, rfl, hitems⟩ := exists_of_perm_cons_map itemHeader_injective hperm
  refine ⟨before ++ after, hitems, ?_⟩
  rw [List.foldlM_append, foldlM_items hseparate, Option.bind_eq_bind, Option.bind_some,
    List.foldlM_cons, readHeader_traceContext hread hvalid, Option.bind_eq_bind, Option.bind_some,
    foldlM_items hseparate, List.map_append, Table.assignAll_append]

lemma foldlM_of_corrupted {L : List Header} (hseparate : p.headerKeys.Separate)
    (hread : (SpanContext.fromStream ⟨p.decodeValue value, true⟩).1 = {})
    (hperm : L.Perm ((p.headerKeys.traceContextHeaderName, value) :: items.map (itemHeader p))) :
    L.foldlM (fun s h => readHeader p s h.1 h.2) ({}, ∅) = none := by
  obtain ⟨before, after, rfl, -⟩ := exists_of_perm_cons_map itemHeader_injective hperm
  rw [List.foldlM_append, foldlM_items hseparate, Option.bind_eq_bind, Option.bind_some,
    List.foldlM_cons, readHeader_corrupted hread]
  rfl

lemma concerns_debug (h : Header) (hdebug : h.1 = p.headerKeys.jaegerDebugHeader) :
    concerns p h = true := by
  simp [concerns, hdebug]

/-- Other headers are passed over. -/
lemma readHeader_other (s : SpanContext × StrMap) (h : Header) (hother : concerns p h = false) :
    readHeader p s h.1 h.2 = some s := by
  simp only [concerns, Bool.or_eq_false_iff, decide_eq_false_iff_not] at hother
  obtain ⟨⟨⟨htrace, hbaggage⟩, -⟩, hitem⟩ := hother
  rw [readHeader, if_neg htrace, if_neg hbaggage, if_neg (by simp [hitem])]

/-- An extraction depends on the normalized headers. -/
lemma doExtract_eq : doExtract p reader =
    match (reader.map p.normalize).foldlM (fun s h => readHeader p s h.1 h.2) ({}, ∅) with
    | none => ({}, 1)
    | some (ctx, baggage) =>
      ({ traceID := ctx.traceID, spanID := ctx.spanID, parentID := ctx.parentID, flags := ctx.flags,
         baggage := baggage }, 0) := by
  rw [doExtract, List.foldlM_map]
  rfl

/-- An item of the baggage as it is read, but for the decoding of its value. -/
def written (p : Propagator) (item : Header) : Header :=
  (p.normalizeKey item.1, p.encodeValue item.2)

/-- An item of the baggage as it is read. -/
def received (p : Propagator) (item : Header) : Header :=
  (p.normalizeKey item.1, p.decodeValue (p.encodeValue item.2))

lemma map_normalize_inject (hnormalized : p.Normalized) :
    (inject p ctx items).map p.normalize =
      (p.headerKeys.traceContextHeaderName, ctx.print) ::
        (items.map (written p)).map (itemHeader p) := by
  simp only [inject, doInject, List.map_cons, List.map_map, Propagator.normalize,
    hnormalized.trace_context]
  congr 2
  funext item
  simp [Propagator.normalize, addBaggageKeyPrefix, hnormalized.append, itemHeader, written]

lemma ne_debug_of_perm {L : List Header} (hseparate : p.headerKeys.Separate)
    (hperm : L.Perm ((p.headerKeys.traceContextHeaderName, value) :: items.map (itemHeader p))) :
    ∀ h ∈ L, h.1 ≠ p.headerKeys.jaegerDebugHeader := by
  intro h hh
  rcases List.mem_cons.mp (hperm.mem_iff.mp hh) with rfl | hh
  · exact hseparate.debug_ne
  · obtain ⟨item, -, rfl⟩ := List.mem_map.mp hh
    exact (itemHeader_ne hseparate item).2.2

/-- What is read of a context with a valid trace ID. -/
lemma extract_of_carries (hseparate : p.headerKeys.Separate) (hnormalized : p.Normalized)
    (hdecode : p.decodeValue ctx.print = ctx.print) (hvalid : ctx.traceID.isValid = true)
    (h : p.Carries (concerns p) (inject p ctx items) reader) :
    ∃ items' : List Header, items'.Perm (items.map (received p)) ∧
      extract p reader = ({ ctx.printed with baggage := Table.assignAll ∅ items' }, 0) := by
  rw [Propagator.Carries, map_normalize_inject hnormalized] at h
  have hprint := SpanContext.fromStream_print_of_valid hvalid
  rw [← hdecode] at hprint
  obtain ⟨items', hitems', hfold⟩ := foldlM_of_perm hseparate hprint hvalid h
  have hdebug := Propagator.debugID_eq_nil concerns_debug (ne_debug_of_perm hseparate h)
  refine ⟨items'.map fun item => (item.1, p.decodeValue item.2), ?_, ?_⟩
  · have hreceived := hitems'.map fun item => (item.1, p.decodeValue item.2)
    rwa [List.map_map] at hreceived
  rw [extract, Propagator.extract, hdebug, doExtract_eq,
    ← Propagator.foldlM_filter readHeader_other, hfold,
    Propagator.complete_of_valid (by exact hvalid)]
  rfl

lemma extract_of_not_valid (hseparate : p.headerKeys.Separate) (hnormalized : p.Normalized)
    (hdecode : p.decodeValue ctx.print = ctx.print) (hvalid : ¬ ctx.traceID.isValid = true)
    (h : p.Carries (concerns p) (inject p ctx items) reader) : extract p reader = ({}, 1) := by
  rw [Propagator.Carries, map_normalize_inject hnormalized] at h
  have hprint := SpanContext.fromStream_print_of_not_valid hvalid
  rw [← hdecode] at hprint
  have hdebug := Propagator.debugID_eq_nil concerns_debug (ne_debug_of_perm hseparate h)
  rw [extract, Propagator.extract, hdebug, doExtract_eq,
    ← Propagator.foldlM_filter readHeader_other,
    foldlM_of_corrupted hseparate hprint h]
  rfl

/-- What is set is carried. -/
lemma carries_inject (hnormalized : p.Normalized) :
    p.Carries (concerns p) (inject p ctx items) (inject p ctx items) := by
  rw [Propagator.Carries, List.filter_eq_self.mpr]
  intro h hh
  rw [map_normalize_inject hnormalized] at hh
  rcases List.mem_cons.mp hh with rfl | hh
  · simp [concerns]
  · obtain ⟨item, -, rfl⟩ := List.mem_map.mp hh
    have hitem : p.headerKeys.traceBaggageHeaderPrefix.isPrefixOf (itemHeader p item).1 = true :=
      List.isPrefixOf_iff_prefix.mpr (List.prefix_append _ _)
    simp [concerns, hitem]

/-- A text map carries a context with its baggage, but neither the debug ID nor the trace state. A
context whose trace ID is not valid is taken for an error, and its baggage is lost. -/
theorem textMap_extract {config : HeadersConfig} (hseparate : config.Separate)
    (hitems : Enumerates items ctx.baggage)
    (h : (Propagator.textMap config).Carries (concerns (.textMap config))
      (inject (.textMap config) ctx items) reader) :
    extract (Propagator.textMap config) reader =
      if ctx.traceID.isValid then ({ ctx with debugID := [], traceState := [] }, 0)
      else ({}, 1) := by
  have hnormalized := Propagator.normalized_textMap config
  split_ifs with hvalid
  · obtain ⟨items', hperm, hextract⟩ := extract_of_carries hseparate hnormalized rfl hvalid h
    have hreceived : items.map (received (Propagator.textMap config)) = items := List.map_id _
    rw [hreceived] at hperm
    -- each key occurs once, so that the order of the items does not matter
    rw [hextract, (hitems.perm hperm).assignAll_eq]
    rfl
  · exact extract_of_not_valid hseparate hnormalized rfl hvalid h

theorem textMap_extract_default :
    extract (.textMap default) (inject (.textMap default)
      { traceID := ⟨0, 1⟩, spanID := 2, baggage := Finmap.singleton [97] [98], debugID := [99] }
      [([97], [98])]) =
      ({ traceID := ⟨0, 1⟩, spanID := 2, baggage := Finmap.singleton [97] [98] }, 0) :=
  textMap_extract HeadersConfig.separate_default .singleton
    (carries_inject (Propagator.normalized_textMap default))

/-! ### The baggage header -/

lemma getlines_append {delim : UInt8} {piece line rest : List UInt8} (h : delim ∉ line) :
    getlines delim piece (line ++ rest) = getlines delim (piece ++ line) rest := by
  induction line generalizing piece with
  | nil => rw [List.nil_append, List.append_nil]
  | cons c line ih =>
    rw [List.mem_cons, not_or] at h
    rw [List.cons_append, getlines, if_neg (Ne.symm h.1), ih h.2, List.append_assoc]
    rfl

/-- Lines with delimiters between them are read one after the other. -/
lemma getlines_intercalate {delim : UInt8} {lines : List (List UInt8)}
    (h : ∀ line ∈ lines, line ≠ [] ∧ delim ∉ line) :
    getlines delim [] ([delim].intercalate lines) = lines := by
  induction lines with
  | nil => rfl
  | cons line lines ih =>
    obtain ⟨⟨hne, hdelim⟩, hlines⟩ := List.forall_mem_cons.mp h
    match lines with
    | [] =>
      -- the last line ends with the text
      have hlast : getlines delim [] line = getlines delim line [] := by
        conv_lhs => rw [← List.append_nil line]
        exact getlines_append hdelim
      rw [List.intercalate_singleton, hlast, getlines, if_neg hne]
    | next :: lines =>
      rw [List.intercalate_cons_cons, List.append_assoc, getlines_append hdelim]
      rw [List.nil_append, List.singleton_append, getlines, if_pos rfl, ih hlines]

/-- The text of an item in the baggage header. -/
def itemText (item : Header) : List UInt8 := item.1 ++ 61 :: item.2

lemma item_itemText {i : Header} (h : 61 ∉ i.1) : item (itemText i) = some i := by
  have hne : ∀ c ∈ i.1, decide (c ≠ 61) = true := by
    intro c hc
    rw [decide_eq_true_iff]
    rintro rfl
    exact h hc
  rw [item, itemText, if_pos (List.mem_append_right _ List.mem_cons_self),
    List.takeWhile_append_of_pos hne, List.dropWhile_append_of_pos hne]
  simp

lemma mem_intercalate {delim c : UInt8} {lines : List (List UInt8)}
    (h : c ∈ [delim].intercalate lines) : c = delim ∨ ∃ line ∈ lines, c ∈ line := by
  induction lines with
  | nil => cases h
  | cons line lines ih =>
    match lines with
    | [] =>
      rw [List.intercalate_singleton] at h
      exact .inr ⟨line, List.mem_cons_self, h⟩
    | next :: lines =>
      rw [List.intercalate_cons_cons, List.append_assoc, List.mem_append, List.mem_append,
        List.mem_singleton] at h
      rcases h with h | h | h
      · exact .inr ⟨line, List.mem_cons_self, h⟩
      · exact .inl h
      · rcases ih h with h | ⟨line', hline', h⟩
        · exact .inl h
        · exact .inr ⟨line', List.mem_cons_of_mem line hline', h⟩

/-- The baggage header gives the items whose texts it has, separated by commas; where a key occurs
more than once, the last of them counts. -/
theorem parseCommaSeparatedMap_intercalate
    (hkey : ∀ item ∈ items, 61 ∉ item.1) (hcomma : ∀ item ∈ items, 44 ∉ itemText item)
    (hrestored : ∀ item ∈ items, ∀ c ∈ itemText item, URI.Restored c) :
    parseCommaSeparatedMap (URI.queryEscape ([44].intercalate (items.map itemText))) =
      Table.assignAll ∅ items := by
  have hlines : ∀ line ∈ items.map itemText, line ≠ [] ∧ 44 ∉ line := by
    intro line hline
    obtain ⟨i, hi, rfl⟩ := List.mem_map.mp hline
    exact ⟨List.append_ne_nil_of_right_ne_nil _ (List.cons_ne_nil _ _), hcomma i hi⟩
  have hunescape : URI.queryUnescape (URI.queryEscape ([44].intercalate (items.map itemText))) =
      [44].intercalate (items.map itemText) := by
    refine URI.queryUnescape_queryEscape fun c hc => ?_
    rcases mem_intercalate hc with rfl | ⟨line, hline, hc⟩
    · -- a comma
      exact .inr (by decide)
    · obtain ⟨i, hi, rfl⟩ := List.mem_map.mp hline
      exact hrestored i hi c hc
  have hitems : (items.map itemText).filterMap item = items := by
    rw [List.filterMap_map]
    exact (List.filterMap_congr fun i hi => item_itemText (hkey i hi)).trans List.filterMap_some
  rw [parseCommaSeparatedMap, hunescape, getlines_intercalate hlines, hitems]

theorem parseCommaSeparatedMap_intercalate_twice :
    parseCommaSeparatedMap (URI.queryEscape
      ([44].intercalate ([([97], [98]), ([97], [99])].map itemText))) =
      Table.assignAll ∅ [([97], [98]), ([97], [99])] :=
  parseCommaSeparatedMap_intercalate (by decide) (by decide) (by decide +kernel)

/-! ### HTTP -/

lemma isUpper_tolower (ch : UInt8) : isUpper (tolower ch) = false := by
  rw [tolower]
  split_ifs with hch
  · simp only [isUpper, Bool.and_eq_true, decide_eq_true_eq, UInt8.le_iff_toNat_le,
      UInt8.reduceToNat] at hch
    simp only [isUpper, Bool.and_eq_false_iff, decide_eq_false_iff_not, UInt8.le_iff_toNat_le,
      UInt8.toNat_add, UInt8.reduceToNat]
    omega
  · exact Bool.eq_false_iff.mpr hch

lemma tolower_tolower (ch : UInt8) : tolower (tolower ch) = tolower ch := by
  conv_lhs => rw [tolower]
  rw [isUpper_tolower, if_neg Bool.false_ne_true]

lemma map_tolower_tolower (key : List UInt8) :
    (key.map tolower).map tolower = key.map tolower := by
  rw [List.map_map]
  exact List.map_congr_left fun ch _ => tolower_tolower ch

lemma notMem_print : (37 : UInt8) ∉ ctx.print := by
  have hpadded : ∀ {width n}, (37 : UInt8) ∉ hexPadded width n := fun h =>
    Bool.false_ne_true (isHex_of_mem_hexPadded h)
  have htrace : (37 : UInt8) ∉ ctx.traceID.print := fun h =>
    Bool.false_ne_true (TraceID.isSegment_print.isHex 37 h)
  simp [SpanContext.print, hpadded, htrace]

lemma normalized_httpHeaders {config : HeadersConfig} (hlower : config.Lower) :
    (Propagator.httpHeaders config).Normalized := by
  refine ⟨hlower.trace_context, fun key => ?_⟩
  change List.map tolower _ = _ ++ List.map tolower key
  rw [List.map_append]
  congr 1
  exact hlower.baggage

/-- HTTP carries a context with its baggage exactly if the keys are in lower case and the values
outlive the escaping. -/
theorem httpHeaders_extract_iff {config : HeadersConfig} (hseparate : config.Separate)
    (hlower : config.Lower) (hitems : Enumerates items ctx.baggage)
    (hvalid : ctx.traceID.isValid = true)
    (h : (Propagator.httpHeaders config).Carries (concerns (.httpHeaders config))
      (inject (.httpHeaders config) ctx items) reader) :
    extract (Propagator.httpHeaders config) reader =
        ({ ctx with debugID := [], traceState := [] }, 0) ↔
      ∀ item ∈ items, item.1.map tolower = item.1 ∧ ∀ c ∈ item.2, URI.Restored c := by
  obtain ⟨items', hperm, hextract⟩ := extract_of_carries hseparate (normalized_httpHeaders hlower)
    (URI.queryUnescape_of_notMem notMem_print) hvalid h
  rw [hextract]
  have hbaggage := hitems.assignAll_eq_iff (f := List.map tolower)
    (g := fun value => URI.queryUnescape (URI.queryEscape value)) map_tolower_tolower hperm
  constructor
  · intro heq item hitem
    obtain ⟨hkey, hvalue⟩ := hbaggage.mp (congrArg (fun r => r.1.baggage) heq) item hitem
    exact ⟨hkey, URI.restored_of_reread hvalue⟩
  · intro hall
    rw [hbaggage.mpr fun item hitem =>
      ⟨(hall item hitem).1, URI.queryUnescape_queryEscape (hall item hitem).2⟩]
    rfl

theorem httpHeaders_extract_iff_default :
    extract (.httpHeaders default) (inject (.httpHeaders default)
      { traceID := ⟨0, 1⟩, spanID := 2, baggage := Finmap.singleton [97] [32] } [([97], [32])]) =
      ({ traceID := ⟨0, 1⟩, spanID := 2, baggage := Finmap.singleton [97] [32] }, 0) :=
  (httpHeaders_extract_iff HeadersConfig.separate_default HeadersConfig.lower_default
    .singleton rfl
    (carries_inject (normalized_httpHeaders HeadersConfig.lower_default))).mpr (by decide +kernel)

lemma fst_of_foldlM {L : List Header} {s' : SpanContext × StrMap}
    (hne : ∀ h ∈ L, h.1 ≠ p.headerKeys.traceContextHeaderName)
    (hfold : L.foldlM (fun s h => readHeader p s h.1 h.2) s = some s') : s'.1 = s.1 := by
  induction L generalizing s with
  | nil =>
    cases hfold
    rfl
  | cons h L ih =>
    obtain ⟨hh, hL⟩ := List.forall_mem_cons.mp hne
    rw [List.foldlM_cons] at hfold
    obtain ⟨t, ht, hfold⟩ := Option.bind_eq_some_iff.mp hfold
    rw [ih hL hfold]
    rw [readHeader, if_neg hh] at ht
    split_ifs at ht
    all_goals
      cases ht
      rfl

/-- A trace context header whose name has a letter in upper case is never recognized. -/
theorem httpHeaders_recognizes_iff {config : HeadersConfig} :
    (∃ reader, (extract (Propagator.httpHeaders config) reader).1.traceID.isValid = true) ↔
      config.traceContextHeaderName.map tolower = config.traceContextHeaderName := by
  constructor
  · rintro ⟨reader, hvalid⟩
    by_contra hupper
    -- no normalized name has a letter in upper case
    have hne : ∀ h ∈ reader.map (Propagator.httpHeaders config).normalize,
        h.1 ≠ config.traceContextHeaderName := by
      intro h hh heq
      obtain ⟨header, -, rfl⟩ := List.mem_map.mp hh
      apply hupper
      rw [← heq]
      exact map_tolower_tolower header.1
    rw [extract, Propagator.extract, Propagator.isValid_complete, doExtract_eq] at hvalid
    cases hfold : (reader.map (Propagator.httpHeaders config).normalize).foldlM
        (fun s h => readHeader (Propagator.httpHeaders config) s h.1 h.2) ({}, ∅) with
    | none =>
      rw [hfold] at hvalid
      cases hvalid
    | some s =>
      have hctx := fst_of_foldlM hne hfold
      rw [hfold] at hvalid
      change s.1.traceID.isValid = true at hvalid
      rw [hctx] at hvalid
      cases hvalid
  · -- the context of one header will do
    intro hlower
    let ctx : SpanContext := { traceID := ⟨0, 1⟩ }
    have hread : SpanContext.fromStream ⟨URI.queryUnescape ctx.print, true⟩ =
        (ctx, ⟨[], true⟩) := by
      rw [URI.queryUnescape_of_notMem notMem_print]
      exact SpanContext.fromStream_print_of_valid rfl
    have hheader : readHeader (.httpHeaders config) ({}, ∅) config.traceContextHeaderName
        ctx.print = some (ctx, ∅) :=
      readHeader_traceContext (p := .httpHeaders config) (s := ({}, ∅))
        hread rfl
    refine ⟨[(config.traceContextHeaderName, ctx.print)], ?_⟩
    have hnormalize : [(config.traceContextHeaderName, ctx.print)].map
        (Propagator.httpHeaders config).normalize = [(config.traceContextHeaderName, ctx.print)] :=
      congrArg (fun name => [(name, ctx.print)]) hlower
    rw [extract, Propagator.extract, Propagator.isValid_complete, doExtract_eq, hnormalize,
      List.foldlM_cons, hheader]
    rfl

end JaegerPropagator

end Tracing
