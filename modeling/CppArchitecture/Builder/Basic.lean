import CppArchitecture.Core.LastWriter
import CppArchitecture.Core.Text
import Mathlib.Data.Int.Notation

/-!
# Item builders

Builders with a fluent interface: every call changes the item under construction and returns the
builder. The generic builder has the calls that set one field; `FetchingItemBuilder` also takes
over the whole item that is found under a URL.
-/

namespace Builder

open Core

variable {F : Type}

/-- `struct Item`, with prices of type `F` and times in ticks since the epoch. -/
structure Item (F : Type) where
  name : String := ""
  photo_url : Option String := none
  description : String := ""
  price : Option F := none
  date_added : ℤ := 0
  featured : Bool := false
  deriving DecidableEq, Repr

/-- `GenericItemBuilder` -/
structure GenericItemBuilder (F : Type) where
  item_ : Item F

namespace GenericItemBuilder

/-- The constructor. -/
def ofName (name : String) : GenericItemBuilder F := ⟨{ name := name }⟩

def withDescription (b : GenericItemBuilder F) (description : String) : GenericItemBuilder F :=
  { b with item_ := { b.item_ with description := description } }

def withPhotoUrl (b : GenericItemBuilder F) (url : String) : GenericItemBuilder F :=
  { b with item_ := { b.item_ with photo_url := some url } }

def withPrice (b : GenericItemBuilder F) (price : F) : GenericItemBuilder F :=
  { b with item_ := { b.item_ with price := some price } }

def markedAsFeatured (b : GenericItemBuilder F) : GenericItemBuilder F :=
  { b with item_ := { b.item_ with featured := true } }

/-- `build`, at the time `now` of the system clock. -/
def build (b : GenericItemBuilder F) (now : ℤ) : Item F := { b.item_ with date_added := now }

end GenericItemBuilder

/-- `ItemBuilder` adds nothing to the generic builder. -/
abbrev ItemBuilder (F : Type) := GenericItemBuilder F

/-- `FetchingItemBuilder` is a generic builder as well. -/
abbrev FetchingItemBuilder (F : Type) := GenericItemBuilder F

variable [OfNat F 72]

/-- `fetch_item`, which knows one item. -/
def fetchItem (url : String) : Item F :=
  if endsWith url.toList "/linen_blouse".toList then
    { name := "Linen blouse"
      photo_url := some (url ++ "/image.png")
      description := "Flowy and airy, quite unordinary"
      price := some 72 }
  else {}

def FetchingItemBuilder.usingDataFrom (b : FetchingItemBuilder F) (url : String) :
    FetchingItemBuilder F :=
  { b with item_ := fetchItem url }

/-! ### Chains of calls -/

/-- The calls that both builders have. -/
inductive Setter (F : Type) where
  | withDescription (description : String)
  | withPhotoUrl (url : String)
  | withPrice (price : F)
  | markedAsFeatured

/-- The calls of `FetchingItemBuilder`. -/
inductive FetchingCall (F : Type) where
  | setter (s : Setter F)
  | usingDataFrom (url : String)

def Setter.call (b : GenericItemBuilder F) : Setter F → GenericItemBuilder F
  | .withDescription description => b.withDescription description
  | .withPhotoUrl url => b.withPhotoUrl url
  | .withPrice price => b.withPrice price
  | .markedAsFeatured => b.markedAsFeatured

def FetchingCall.call (b : FetchingItemBuilder F) : FetchingCall F → FetchingItemBuilder F
  | .setter s => s.call b
  | .usingDataFrom url => FetchingItemBuilder.usingDataFrom b url

/-- `ItemBuilder{name}`, a chain of calls, and `build()`. -/
def ItemBuilder.chain (name : String) (cs : List (Setter F)) (now : ℤ) : Item F :=
  (cs.foldl Setter.call (GenericItemBuilder.ofName name)).build now

/-- `FetchingItemBuilder{name}`, a chain of calls, and `build()`. -/
def FetchingItemBuilder.chain (name : String) (cs : List (FetchingCall F)) (now : ℤ) : Item F :=
  (cs.foldl FetchingCall.call (GenericItemBuilder.ofName name)).build now

end Builder
