import CppArchitecture.Core.Numerals
import CppArchitecture.Core.Streams
import CppArchitecture.Core.Table

/-!
# The context of a span

A span travels from one process to another as the numbers of its trace, of itself and of its
parent, and its flags, printed in hexadecimal with colons between them; and as its baggage, a map
from texts to texts.
-/

namespace Tracing

open Core

/-! ### Hexadecimal numbers -/

def isHex (ch : UInt8) : Bool :=
  (48 ≤ ch && ch ≤ 57) || (65 ≤ ch && ch ≤ 70) || (97 ≤ ch && ch ≤ 102)

/-- `std::isupper` -/
def isUpper (ch : UInt8) : Bool := 65 ≤ ch && ch ≤ 90

/-- The loop of `readSegment`, with the buffer so far and as many characters to go. -/
def readLoop (delim : UInt8) : ℕ → List UInt8 → IStream UInt8 → List UInt8 × IStream UInt8
  | 0, buffer, s => (buffer, s)
  | maxChars + 1, buffer, s =>
    match s.get with
    | (none, t) => (buffer, t)
    | (some ch, t) =>
      if isHex ch then readLoop delim maxChars (buffer ++ [ch]) t
      else if ch = delim then (buffer, t.putback ch)
      else ([], t)

def readSegment (maxChars : ℕ) (delim : UInt8) (s : IStream UInt8) : List UInt8 × IStream UInt8 :=
  readLoop delim maxChars [] s

def hexDigit (ch : UInt8) : ℕ :=
  if isDigit ch then ch.toNat - 48
  else if isUpper ch then ch.toNat - 65 + 10
  else ch.toNat - 97 + 10

/-- `decodeHex`, whose result has `w` bits. -/
def decodeHex (w : ℕ) (str : List UInt8) : BitVec w :=
  str.foldl (fun result ch => result <<< 4 ||| BitVec.ofNat w (hexDigit ch)) 0

/-- `out << std::setw(width) << std::setfill('0') << std::hex << n` -/
def hexPadded (width n : ℕ) : List UInt8 := (pad width (digits 16 n)).map digitChar

/-! ### Trace IDs -/

structure TraceID where
  high : BitVec 64 := 0
  low : BitVec 64 := 0
  deriving DecidableEq, Repr

namespace TraceID

def isValid (id : TraceID) : Bool := id.high ≠ 0 || id.low ≠ 0

def print (id : TraceID) : List UInt8 :=
  if id.high = 0 then hexPadded 16 id.low.toNat
  else hexPadded 16 id.high.toNat ++ hexPadded 16 id.low.toNat

/-- The trace ID of a segment. -/
def ofBuffer (buffer : List UInt8) : TraceID :=
  if buffer.length < 16 then ⟨0, decodeHex 64 buffer⟩
  else ⟨decodeHex 64 (buffer.take (buffer.length - 16)),
    decodeHex 64 (buffer.drop (buffer.length - 16))⟩

def fromStream (s : IStream UInt8) : TraceID × IStream UInt8 :=
  let (buffer, t) := readSegment 32 58 s
  if buffer = [] then ({}, t) else (ofBuffer buffer, t)

end TraceID

/-! ### Span contexts -/

abbrev StrMap := Table (List UInt8) (List UInt8)

structure SpanContext where
  traceID : TraceID := {}
  spanID : BitVec 64 := 0
  parentID : BitVec 64 := 0
  flags : BitVec 8 := 0
  baggage : StrMap := ∅
  debugID : List UInt8 := []
  traceState : List UInt8 := []
  deriving DecidableEq

namespace SpanContext

def print (ctx : SpanContext) : List UInt8 :=
  ctx.traceID.print ++ 58 :: hexPadded 16 ctx.spanID.toNat ++ 58 ::
    hexPadded 16 ctx.parentID.toNat ++ 58 :: hexPadded 0 ctx.flags.toNat

/-- A function that reads the stream; where it gives up, it returns a context without content. -/
abbrev Reader := EStateM Unit (IStream UInt8)

/-- `if (!in.get(ch) || ch != expected) return SpanContext();` -/
def expect (expected : UInt8) : Reader PUnit := do
  match ← modifyGet IStream.get with
  | some ch => if ch ≠ expected then throw ()
  | none => throw ()

/-- `readSegment`, and `if (buffer.empty()) return SpanContext();` -/
def segment (maxChars : ℕ) (delim : UInt8) : Reader (List UInt8) := do
  let buffer ← modifyGet (readSegment maxChars delim)
  if buffer = [] then throw () else return buffer

/-- The body of `fromStream`. -/
def read : Reader SpanContext := do
  let traceID ← modifyGet TraceID.fromStream
  if ¬ traceID.isValid then throw ()
  expect 58
  let spanID ← segment 16 58
  expect 58
  let parentID ← segment 16 58
  expect 58
  let flags ← segment 2 58
  modify IStream.clear
  return {
    traceID := traceID
    spanID := decodeHex 64 spanID
    parentID := decodeHex 64 parentID
    flags := decodeHex 8 flags }

/-- The result of a reader, and the stream it leaves. -/
def returned (reader : Reader SpanContext) (s : IStream UInt8) : SpanContext × IStream UInt8 :=
  match reader.run s with
  | .ok ctx t => (ctx, t)
  | .error _ t => ({}, t)

def fromStream : IStream UInt8 → SpanContext × IStream UInt8 := returned read

end SpanContext

end Tracing
