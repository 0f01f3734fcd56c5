import CppArchitecture.Core.Assignments
import CppArchitecture.Core.Bytes
import CppArchitecture.Tracing.Basic

/-!
# Span contexts as bytes

The numbers of a context are turned into the byte order of the network and then written with the
highest byte first. On a host that has the highest byte first nothing is turned; on any other host
the numbers come out with the lowest byte first. Hosts of one kind understand each other.
-/

namespace Tracing

open Core

/-- Which byte of a number the host has first. -/
inductive Endian where
  | little
  | big
  deriving DecidableEq, Repr

namespace Endian

/-- `toBigEndian`, for which the platform has `htobe32` and `htobe64` -/
def toBigEndian {w : ℕ} : Endian → BitVec w → BitVec w
  | little, value => byteSwap value
  | big, value => value

/-- `fromBigEndian`, for which the platform has `be32toh` and `be64toh` -/
def fromBigEndian {w : ℕ} : Endian → BitVec w → BitVec w
  | little, value => byteSwap value
  | big, value => value

end Endian

namespace BinaryPropagator

open SpanContext (Reader)

variable (host : Endian)

def writeBinary {w : ℕ} (value : BitVec w) : List UInt8 := bytes (host.toBigEndian value)

/-- The loop of `readBinary`, with `i` bytes to go. -/
def readLoop {w : ℕ} : ℕ → BitVec w → IStream UInt8 → BitVec w × IStream UInt8
  | 0, value, s => (value, s)
  | i + 1, value, s =>
    match s.get with
    | (none, t) => (value, t)
    | (some ch, t) => readLoop i (appendByte value ch) t

def readBinary (w : ℕ) : Reader (BitVec w) := do
  let value ← modifyGet (readLoop (w / 8) 0)
  return host.fromBigEndian value

def writeString (str : List UInt8) : List UInt8 :=
  writeBinary host (BitVec.ofNat 32 str.length) ++ str

/-- A key or a value of the baggage, and `if (!in.read(..)) return SpanContext();` -/
def readString : Reader (List UInt8) := do
  let length ← readBinary host 32
  let str ← modifyGet (IStream.read length.toNat)
  if (← get).good then return str else throw ()

/-- The loop over the items of the baggage, with `i` of them to go. -/
def readItems : ℕ → StrMap → Reader StrMap
  | 0, baggage => return baggage
  | i + 1, baggage => do
    let key ← readString host
    let value ← readString host
    readItems i (baggage.insert key value)

/-- The bytes that are written, where the items of the baggage come in the order of `items`. -/
def inject (ctx : SpanContext) (items : List (List UInt8 × List UInt8)) : List UInt8 :=
  writeBinary host ctx.traceID.high ++ writeBinary host ctx.traceID.low ++
    writeBinary host ctx.spanID ++ writeBinary host ctx.parentID ++ [⟨ctx.flags⟩] ++
    writeBinary host (BitVec.ofNat 32 items.length) ++
    items.flatMap fun item => writeString host item.1 ++ writeString host item.2

/-- The body of `extract`. -/
def read : Reader SpanContext := do
  let traceIDHigh ← readBinary host 64
  let traceIDLow ← readBinary host 64
  let spanID ← readBinary host 64
  let parentID ← readBinary host 64
  let ch ← modifyGet IStream.get
  let numBaggageItems ← readBinary host 32
  let baggage ← readItems host numBaggageItems.toNat ∅
  return {
    traceID := ⟨traceIDHigh, traceIDLow⟩
    spanID := spanID
    parentID := parentID
    flags := (ch.getD 0).toBitVec
    baggage := baggage }

/-- The context, and how many decoding errors there are. -/
def extract (s : IStream UInt8) : (SpanContext × ℕ) × IStream UInt8 :=
  match (read host).run s with
  | .ok ctx t => ((ctx, 0), t)
  | .error _ t => (({}, 1), t)

end BinaryPropagator

end Tracing
