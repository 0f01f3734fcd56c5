import CppArchitecture.Core.Numerals
import CppArchitecture.Core.Streams

/-!
# The protocol of a key-value store

Values are put into a stream in the format of the protocol, and read from one. A marker tells of
which kind a value is; what follows it is a line, and for a bulk string as many characters as the
line says, and a line break.
-/

namespace Redis

open Core

/-- The markers of the values. -/
inductive Marker where
  | simpleString
  | errorMessage
  | integer
  | bulkString
  | array
  deriving DecidableEq, Repr

def Marker.char : Marker → UInt8
  | .simpleString => 43
  | .errorMessage => 45
  | .integer => 58
  | .bulkString => 36
  | .array => 42

def cr : UInt8 := 13

def lf : UInt8 := 10

def crlf : List UInt8 := [cr, lf]

/-! ### Serialization -/

namespace Serialization

/-- The values that can be put into a stream. A bulk string and binary data whose pointer is null
are `none`. -/
inductive Item where
  | simpleString (value : List UInt8)
  | errorMessage (value : List UInt8)
  | integer (value : ℤ)
  | bulkString (value : Option (List UInt8))
  | binaryData (data : Option (List UInt8))
  | null
  | array (values : List Item)

/-- `bulk_string` and `binary_data` -/
def putBulk : Option (List UInt8) → List UInt8
  | some value => Marker.bulkString.char :: (decimal value.length ++ crlf ++ value ++ crlf)
  | none => Marker.bulkString.char :: (decimal (-1) ++ crlf)

/-- Whether the array of the values is an `array<null>`, which is a class of its own. -/
def isNull : List Item → Bool
  | [.null] => true
  | _ => false

mutual

def put : Item → List UInt8
  | .simpleString value => Marker.simpleString.char :: (value ++ crlf)
  | .errorMessage value => Marker.errorMessage.char :: (value ++ crlf)
  | .integer value => Marker.integer.char :: (decimal (value.bmod (2 ^ 64)) ++ crlf)
  | .bulkString value => putBulk value
  | .binaryData data => putBulk data
  | .null => putBulk none
  | .array values =>
    if isNull values then Marker.array.char :: (decimal (-1) ++ crlf)
    else Marker.array.char :: (decimal values.length ++ crlf ++ putAll values)

def putAll : List Item → List UInt8
  | [] => []
  | value :: values => put value ++ putAll values

end

/-- `execute_no_flush` -/
def command (name : List UInt8) (args : List (List UInt8)) : Item :=
  .array ((name :: args).map fun arg => .bulkString (some arg))

end Serialization

/-! ### Deserialization -/

namespace Deserialization

/-- The values that can be read; a bulk string and an array that are null are `none`. -/
inductive Item where
  | simpleString (value : List UInt8)
  | errorMessage (value : List UInt8)
  | integer (value : ℤ)
  | bulkString (data : Option (List UInt8))
  | array (items : Option (List Item))
  | null

/-- What stops the reading. Only the first three are exceptions. -/
inductive Error where
  | invalidArgument (what : String)
  | outOfRange (what : String)
  | lengthError
  /-- `pop_back` of an empty string -/
  | undefined
  | stackOverflow
  deriving DecidableEq, Repr

/-- The greatest sizes of a `std::vector<char>` and a `std::vector<item_type>`, and how many calls
of constructors the stack has room for. -/
structure Limits where
  bytes : ℕ
  items : ℕ
  frames : ℕ
  bytes_lt : bytes < 2 ^ 63
  items_lt : items < 2 ^ 63

/-- Limits of a small machine. -/
def smallLimits : Limits := ⟨10, 10, 2, by decide, by decide⟩

abbrev Reader := EStateM Error (IStream UInt8)

def getMark : Reader Marker := do
  match ← modifyGet IStream.get with
  | some 43 => return .simpleString
  | some 45 => return .errorMessage
  | some 58 => return .integer
  | some 36 => return .bulkString
  | some 42 => return .array
  | _ => throw (.invalidArgument
      "[rediscpp::resp::deserialization::get_mark] Bad input format.")

/-- `std::getline(stream, string)` -/
def getline : Reader (List UInt8) := modifyGet (IStream.getline lf)

/-- The line of a `simple_string` or an `error_message`. -/
def getString : Reader (List UInt8) := do
  let value ← getline
  if value = [] then throw .undefined else return value.dropLast

/-- A line with a number. -/
def getInteger : Reader ℤ := do
  let string ← getline
  match stoll string with
  | .ok z => return z
  | .error .invalidArgument => throw (.invalidArgument "stoll")
  | .error .outOfRange => throw (.outOfRange "stoll")

/-- The characters of `binary_data`. -/
def readData (L : Limits) (length : ℤ) : Reader (Option (List UInt8)) := do
  if length < 0 then return none
  else if length < 1 then return some []
  else if L.bytes < length then throw .lengthError
  else
    let data ← modifyGet (IStream.read length.toNat)
    let _ ← getline
    -- the vector had been filled with zeros
    return some (data ++ List.replicate (length.toNat - data.length) 0)

/-- `binary_data` -/
def binaryData (L : Limits) : Reader (Option (List UInt8)) := do
  let length ← getInteger
  readData L length

/-- `while (count--)`, where `read` reads one value. -/
def items {α : Type} (read : Reader α) : ℕ → Reader (List α)
  | 0 => return []
  | count + 1 => do
    let x ← read
    let xs ← items read count
    return x :: xs

/-- The values of an `array`. -/
def readItems (L : Limits) (item : Reader Item) (count : ℤ) : Reader (Option (List Item)) := do
  if count < 0 then return none
  else if count < 1 then return some []
  else if L.items < count then throw .lengthError
  else
    let xs ← items item count.toNat
    return some xs

def array (L : Limits) (item : Reader Item) : Reader (Option (List Item)) := do
  let count ← getInteger
  readItems L item count

/-- The value that follows its marker, where `item` reads the values of an array. -/
def construct (L : Limits) (item : Reader Item) : Marker → Reader Item
  | .simpleString => return .simpleString (← getString)
  | .errorMessage => return .errorMessage (← getString)
  | .integer => return .integer (← getInteger)
  | .bulkString => return .bulkString (← binaryData L)
  | .array => return .array (← array L item)

/-- A value with its marker, with room for so many calls. -/
def item (L : Limits) : ℕ → Reader Item
  | 0 => throw .stackOverflow
  | frames + 1 => do
    let marker ← getMark
    construct L (item L frames) marker

/-- The marker of a value that has been read, which is not a `null`. -/
def Item.marker : Item → Marker
  | .simpleString _ => .simpleString
  | .errorMessage _ => .errorMessage
  | .integer _ => .integer
  | .bulkString _ => .bulkString
  | .array _ => .array
  | .null => .bulkString

end Deserialization

open Deserialization

/-- The class `value`. -/
structure Value where
  marker : Marker
  item : Item

/-- The constructor of a `value` that reads a stream. -/
def value (L : Limits) : Reader Value := do
  let marker ← getMark
  let item ← construct L (item L L.frames) marker
  return ⟨marker, item⟩

/-- What a conversion of a `value` throws. -/
inductive CastError where
  | runtimeError (what : List UInt8)
  | badCast
  | logicError (what : String)
  deriving DecidableEq, Repr

namespace Value

/-- The constructor of a `value` from an item, such as one of an array. -/
def wrap (item : Item) : Value := ⟨.array, item⟩

def asErrorMessage (v : Value) : Except CastError (List UInt8) :=
  match v.item with
  | .errorMessage value => .ok value
  | _ => .error .badCast

def asSimpleString (v : Value) : Except CastError (List UInt8) :=
  match v.item with
  | .simpleString value => .ok value
  | _ => .error .badCast

def asBulkString (v : Value) : Except CastError (List UInt8) :=
  match v.item with
  | .bulkString (some data) => .ok data
  | .bulkString none => .error (.logicError "You can't cast Null to any type.")
  | _ => .error .badCast

def asString (v : Value) : Except CastError (List UInt8) :=
  if v.marker = .simpleString then v.asSimpleString else v.asBulkString

/-- `as<std::string>` -/
def as (v : Value) : Except CastError (List UInt8) :=
  if v.marker = .errorMessage then do
    let what ← v.asErrorMessage
    throw (.runtimeError what)
  else v.asString

end Value

end Redis
