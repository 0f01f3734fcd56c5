import CppArchitecture.Tracing.BinaryRoundTrip
import CppArchitecture.Tracing.Span
import CppArchitecture.Tracing.TraceParent

/-!
# What tracers send each other

A tracer has a propagator for each kind of carrier. Whatever a carrier loses of a context that one
tracer has injected, a context that another one extracts from it is in the same trace, stands for
the same span and has the same flags, if it is valid at all.
-/

namespace Tracing

open Core

/-- `propagation::Format` -/
inductive Format where
  | jaeger
  | w3c
  deriving DecidableEq, Repr

/-- The part of a tracer's configuration that its propagators are made from, and its host. -/
structure Config where
  propagationFormat : Format
  headers : HeadersConfig
  host : Endian

/-- What a reader finds where a context has been injected: headers, or the bytes of a stream. -/
inductive Carrier where
  | textMap (reader : List Header)
  | httpHeaders (reader : List Header)
  | binary (bytes : List UInt8)
  deriving DecidableEq, Repr

namespace Tracer

/-- Headers may come in another order and with others among them. -/
def InjectsHeaders (format : Format) (p : Propagator) (ctx : SpanContext) (reader : List Header) :
    Prop :=
  match format with
  | .jaeger => ∃ items, Enumerates items ctx.baggage ∧
      p.Carries (JaegerPropagator.concerns p) (JaegerPropagator.inject p ctx items) reader
  | .w3c => p.Carries (W3CPropagator.concerns p) (W3CPropagator.inject ctx) reader

/-- The carriers that a reader may find where a tracer has injected the context. -/
def Injects (config : Config) (ctx : SpanContext) : Carrier → Prop
  | .textMap reader => InjectsHeaders config.propagationFormat (.textMap config.headers) ctx reader
  | .httpHeaders reader =>
    InjectsHeaders config.propagationFormat (.httpHeaders config.headers) ctx reader
  | .binary bytes => ∃ items rest, Enumerates items ctx.baggage ∧
      bytes = BinaryPropagator.inject config.host ctx items ++ rest

def extractHeaders (format : Format) (p : Propagator) (reader : List Header) : SpanContext :=
  match format with
  | .jaeger => (JaegerPropagator.extract p reader).1
  | .w3c => (W3CPropagator.extract p reader).1

/-- The context that the propagator for a carrier returns. -/
def propagated (config : Config) : Carrier → SpanContext
  | .textMap reader => extractHeaders config.propagationFormat (.textMap config.headers) reader
  | .httpHeaders reader =>
    extractHeaders config.propagationFormat (.httpHeaders config.headers) reader
  | .binary bytes => (BinaryPropagator.extract config.host ⟨bytes, true⟩).1.1

/-- A context without any content is not returned. -/
def extract (config : Config) (c : Carrier) : Option SpanContext :=
  if propagated config c = {} then none else some (propagated config c)

end Tracer

/-- Names of headers that the propagators can tell apart. -/
structure Config.Sound (config : Config) : Prop where
  separate : config.headers.Separate
  lower : config.headers.Lower
  debug_ne_parent : config.headers.jaegerDebugHeader ≠ W3CPropagator.kW3CTraceParentHeaderName
  debug_ne_state : config.headers.jaegerDebugHeader ≠ W3CPropagator.kW3CTraceStateHeaderName

lemma Config.sound_default (format : Format) (host : Endian) :
    (Config.mk format default host).Sound where
  separate := HeadersConfig.separate_default
  lower := HeadersConfig.lower_default
  debug_ne_parent :=
    (by decide : (default : HeadersConfig).jaegerDebugHeader ≠
      W3CPropagator.kW3CTraceParentHeaderName)
  debug_ne_state :=
    (by decide : (default : HeadersConfig).jaegerDebugHeader ≠
      W3CPropagator.kW3CTraceStateHeaderName)

/-- Two contexts that stand for the same span and have the same flags. -/
structure SpanContext.Alike (ctx ctx' : SpanContext) : Prop where
  traceID : ctx'.traceID = ctx.traceID
  spanID : ctx'.spanID = ctx.spanID
  flags : ctx'.flags = ctx.flags

namespace Tracer

open SpanContext (Alike)

variable {config : Config} {ctx ctx' : SpanContext} {p : Propagator} {reader : List Header}
  {c : Carrier}

lemma alike_of_headers {format : Format} (hsound : config.Sound)
    (hp : p = .textMap config.headers ∨ p = .httpHeaders config.headers)
    (h : InjectsHeaders format p ctx reader)
    (hvalid : (extractHeaders format p reader).isValid = true) :
    Alike ctx (extractHeaders format p reader) := by
  have hkeys : p.headerKeys = config.headers := by
    rcases hp with rfl | rfl <;> rfl
  match format with
  | .jaeger =>
    have hseparate : p.headerKeys.Separate := hkeys ▸ hsound.separate
    have hnormalized : p.Normalized := by
      rcases hp with rfl | rfl
      · exact Propagator.normalized_textMap _
      · exact JaegerPropagator.normalized_httpHeaders hsound.lower
    have hdecode : p.decodeValue ctx.print = ctx.print := by
      rcases hp with rfl | rfl
      · rfl
      · exact URI.queryUnescape_of_notMem JaegerPropagator.notMem_print
    obtain ⟨items, -, hcarries⟩ := h
    rw [extractHeaders] at hvalid ⊢
    by_cases htrace : ctx.traceID.isValid = true
    · obtain ⟨_, -, hextract⟩ := JaegerPropagator.extract_of_carries hseparate hnormalized hdecode
        htrace hcarries
      rw [hextract]
      exact ⟨rfl, rfl, rfl⟩
    · rw [JaegerPropagator.extract_of_not_valid hseparate hnormalized hdecode htrace hcarries]
        at hvalid
      cases hvalid
  | .w3c =>
    have hplain : W3CPropagator.Plain p := by
      rcases hp with rfl | rfl
      · exact W3CPropagator.plain_textMap
      · exact W3CPropagator.plain_httpHeaders
    have hparent := hkeys ▸ hsound.debug_ne_parent
    have hstate := hkeys ▸ hsound.debug_ne_state
    rw [extractHeaders] at hvalid ⊢
    by_cases htrace : ctx.traceID.isValid = true
    · rw [W3CPropagator.extract_of_carries hplain hparent hstate htrace h]
      exact ⟨rfl, rfl, rfl⟩
    · rw [W3CPropagator.extract_of_not_valid hplain hparent hstate htrace h] at hvalid
      cases hvalid

/-- Whatever has become of the baggage, the numbers before it are those that were written. -/
lemma alike_of_binary {host : Endian} {items : List Header} {rest : List UInt8}
    (hvalid : (BinaryPropagator.extract host
      ⟨BinaryPropagator.inject host ctx items ++ rest, true⟩).1.1.isValid = true) :
    Alike ctx (BinaryPropagator.extract host
      ⟨BinaryPropagator.inject host ctx items ++ rest, true⟩).1.1 := by
  rw [BinaryPropagator.inject_eq, List.append_assoc, BinaryPropagator.extract,
    BinaryPropagator.read_run] at hvalid ⊢
  cases hitems : (BinaryPropagator.readItems host
      (BinaryPropagator.seen host host (BitVec.ofNat 32 items.length)).toNat ∅).run
      ⟨items.flatMap (BinaryPropagator.itemBytes host) ++ rest, true⟩ with
  | ok baggage t =>
    rw [run_bind_of_ok hitems] at hvalid ⊢
    have hseen : BinaryPropagator.seenContext host host ctx baggage =
        { ctx with baggage := baggage, debugID := [], traceState := [] } := by
      simp only [BinaryPropagator.seenContext, BinaryPropagator.seen_self (w := 64) (by decide)]
    change Alike ctx (BinaryPropagator.seenContext host host ctx baggage)
    rw [hseen]
    exact ⟨rfl, rfl, rfl⟩
  | error e t =>
    rw [run_bind_of_error hitems] at hvalid
    cases hvalid

/-- A valid context that is extracted is like the one that was injected. -/
lemma alike_of_injects (hsound : config.Sound) (h : Injects config ctx c)
    (hextract : extract config c = some ctx') (hvalid : ctx'.isValid = true) : Alike ctx ctx' := by
  rw [extract] at hextract
  split_ifs at hextract
  obtain rfl := Option.some.inj hextract
  match c with
  | .textMap reader => exact alike_of_headers hsound (.inl rfl) h hvalid
  | .httpHeaders reader => exact alike_of_headers hsound (.inr rfl) h hvalid
  | .binary bytes =>
    obtain ⟨items, rest, -, rfl⟩ := h
    exact alike_of_binary hvalid

end Tracer

end Tracing
