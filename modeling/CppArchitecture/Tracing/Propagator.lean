import CppArchitecture.Core.Assignments
import CppArchitecture.Tracing.Uri

/-!
# Carrying a span context in headers

A propagator writes a span context and its baggage to the headers of a request, and reads them from
the headers it gets, which come in any order. In a text map the headers are as they are; in HTTP,
names do not depend on the case, and the values of the baggage are escaped.
-/

namespace Tracing

open Core

/-- A header's name and its value. -/
abbrev Header := List UInt8 × List UInt8

/-- The names of the headers. -/
structure HeadersConfig where
  jaegerDebugHeader : List UInt8
  jaegerBaggageHeader : List UInt8
  traceContextHeaderName : List UInt8
  traceBaggageHeaderPrefix : List UInt8

namespace HeadersConfig

def kJaegerDebugHeader : List UInt8 := text "jaeger-debug-id"

def kJaegerBaggageHeader : List UInt8 := text "jaeger-baggage"

def kTraceContextHeaderName : List UInt8 := text "uber-trace-id"

def kTraceBaggageHeaderPrefix : List UInt8 := text "uberctx-"

/-- The constructor, to which an empty name stands for the default one. -/
def make (jaegerDebugHeader jaegerBaggageHeader traceContextHeaderName
    traceBaggageHeaderPrefix : List UInt8) : HeadersConfig where
  jaegerDebugHeader := if jaegerDebugHeader = [] then kJaegerDebugHeader else jaegerDebugHeader
  jaegerBaggageHeader :=
    if jaegerBaggageHeader = [] then kJaegerBaggageHeader else jaegerBaggageHeader
  traceContextHeaderName :=
    if traceContextHeaderName = [] then kTraceContextHeaderName else traceContextHeaderName
  traceBaggageHeaderPrefix :=
    if traceBaggageHeaderPrefix = [] then kTraceBaggageHeaderPrefix else traceBaggageHeaderPrefix

instance : Inhabited HeadersConfig := ⟨make [] [] [] []⟩

end HeadersConfig

/-- `std::tolower` -/
def tolower (ch : UInt8) : UInt8 := if isUpper ch then ch + 32 else ch

/-- The header names, and the virtual functions that carriers differ in. -/
structure Propagator where
  headerKeys : HeadersConfig
  encodeValue : List UInt8 → List UInt8
  decodeValue : List UInt8 → List UInt8
  normalizeKey : List UInt8 → List UInt8

namespace Propagator

/-- The propagators for `opentracing::TextMapReader` and `opentracing::TextMapWriter`. -/
def textMap (headerKeys : HeadersConfig) : Propagator := ⟨headerKeys, id, id, id⟩

/-- The propagators for `opentracing::HTTPHeadersReader` and `opentracing::HTTPHeadersWriter`. -/
def httpHeaders (headerKeys : HeadersConfig) : Propagator where
  headerKeys := headerKeys
  encodeValue := URI.queryEscape
  decodeValue := URI.queryUnescape
  normalizeKey := List.map tolower

/-- The debug ID that `extract` finds in the headers. -/
def debugID (p : Propagator) (reader : List Header) : List UInt8 :=
  reader.foldl
    (fun debugID h => if p.normalizeKey h.1 = p.headerKeys.jaegerDebugHeader then h.2 else debugID)
    []

/-- What `extract` makes of the context that `doExtract` has returned. -/
def complete (debugID : List UInt8) (ctx : SpanContext) : SpanContext :=
  if ¬ ctx.traceID.isValid ∧ ctx.baggage = ∅ ∧ debugID = [] then {}
  else
    { ctx with
      flags := if debugID ≠ [] then ctx.flags ||| (2 ||| 1) else ctx.flags
      debugID := debugID }

/-- The context, and how many decoding errors `doExtract` has counted. -/
def extract (p : Propagator) (doExtract : List Header → SpanContext × ℕ) (reader : List Header) :
    SpanContext × ℕ :=
  (complete (p.debugID reader) (doExtract reader).1, (doExtract reader).2)

end Propagator

namespace JaegerPropagator

/-- The lines of a text, one after the other, as `std::getline` gives them. -/
def getlines (delim : UInt8) (piece : List UInt8) : List UInt8 → List (List UInt8)
  | [] => if piece = [] then [] else [piece]
  | ch :: rest =>
    if ch = delim then piece :: getlines delim [] rest else getlines delim (piece ++ [ch]) rest

/-- A piece with `=` in it is a key and a value. -/
def item (piece : List UInt8) : Option Header :=
  if 61 ∈ piece then some (piece.takeWhile (· ≠ 61), (piece.dropWhile (· ≠ 61)).tail) else none

def parseCommaSeparatedMap (escapedValue : List UInt8) : StrMap :=
  Table.assignAll ∅ ((getlines 44 [] (URI.queryUnescape escapedValue)).filterMap item)

variable (p : Propagator)

def addBaggageKeyPrefix (key : List UInt8) : List UInt8 :=
  p.headerKeys.traceBaggageHeaderPrefix ++ key

def removeBaggageKeyPrefix (key : List UInt8) : List UInt8 :=
  key.drop p.headerKeys.traceBaggageHeaderPrefix.length

/-- The function that `doExtract` gives to `ForeachKey`, for a header whose name is normalized. -/
def readHeader (s : SpanContext × StrMap) (key value : List UInt8) :
    Option (SpanContext × StrMap) :=
  if key = p.headerKeys.traceContextHeaderName then
    let (ctx, iss) := SpanContext.fromStream ⟨p.decodeValue value, true⟩
    if ¬ iss.good ∨ ctx = {} then none else some (ctx, s.2)
  else if key = p.headerKeys.jaegerBaggageHeader then
    some (s.1, parseCommaSeparatedMap value ∪ s.2)
  else if p.headerKeys.traceBaggageHeaderPrefix.isPrefixOf key then
    some (s.1, s.2.insert (removeBaggageKeyPrefix p key) (p.decodeValue value))
  else some s

/-- The context, and how many decoding errors there are. -/
def doExtract (reader : List Header) : SpanContext × ℕ :=
  match reader.foldlM (fun s h => readHeader p s (p.normalizeKey h.1) h.2) ({}, ∅) with
  | none => ({}, 1)
  | some (ctx, baggage) =>
    ({ traceID := ctx.traceID, spanID := ctx.spanID, parentID := ctx.parentID, flags := ctx.flags,
       baggage := baggage }, 0)

/-- The headers that are set, where the items of the baggage come in the order of `items`. -/
def doInject (ctx : SpanContext) (items : List Header) : List Header :=
  (p.headerKeys.traceContextHeaderName, ctx.print) ::
    items.map fun item => (addBaggageKeyPrefix p item.1, p.encodeValue item.2)

def extract (reader : List Header) : SpanContext × ℕ := p.extract (doExtract p) reader

def inject (ctx : SpanContext) (items : List Header) : List Header := doInject p ctx items

end JaegerPropagator

end Tracing
