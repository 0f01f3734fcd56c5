import CppArchitecture.Core.View

/-!
# The gallery and its five versions

The featured items of a customer's favourite stores are collected by loops (`1_base`), by eager
vectors for each store (`2_ranges_part_1`), or through a lazy pipeline of views
(`3_ranges_part_2`, `4_concepts`, `5_modules`). The versions share their data; what differs is
how the stores and their items are walked.
-/

namespace Gallery

open Core

/-- `struct Item`, with `F` for the prices and `D` for the points in time. -/
structure Item (F D : Type) where
  name : String
  photo_url : Option String := none
  description : String
  price : Option F := none
  date_added : D
  featured : Bool := false
  deriving DecidableEq

/-- `struct Store` -/
structure Store (F D : Type) where
  items : List (Item F D)

/-- `const Store *`, never null, with the store it points to. -/
structure StorePtr (F D : Type) where
  address : ℕ
  pointee : Store F D

/-- `const Item *`, never null: an element of the items of a store, with the item that is there.
An item that is referred to is known by its pointer, too. -/
structure ItemPtr (F D : Type) where
  store : ℕ
  index : ℕ
  pointee : Item F D

variable {F D : Type}

/-- `store.items`, each item where it stands in the store. -/
def StorePtr.items (store : StorePtr F D) : List (ItemPtr F D) :=
  store.pointee.items.mapIdx fun i item => ⟨store.address, i, item⟩

/-- `&item` -/
def addressOf (item : ItemPtr F D) : ItemPtr F D := item

/-- `&Item::featured` -/
def featured (item : ItemPtr F D) : Bool := item.pointee.featured

/-! ### `1_base` -/

namespace Base

def getFeaturedItemsForStore (store : StorePtr F D) : Vec (ItemPtr F D) :=
  (View.ofList store.items).forEach (fun acc item =>
    if item.pointee.featured then acc.pushBack (addressOf item) else acc) .empty

def getAllFeaturedItems (stores : List (StorePtr F D)) : Vec (ItemPtr F D) :=
  (View.ofList stores).forEach (fun allFeatured store =>
    let featuredInStore := getFeaturedItemsForStore store
    let allFeatured := allFeatured.reserve (allFeatured.size + featuredInStore.size)
    (View.ofList featuredInStore.elements).copy allFeatured) .empty

end Base

/-! ### `2_ranges_part_1` -/

namespace RangesPart1

/-- The view is walked at once, into a vector. -/
def getFeaturedItemsForStore (store : StorePtr F D) : Vec (ItemPtr F D) :=
  let items := (View.ofList store.items).filter featured |>.transform addressOf
  items.copy .empty

def getAllFeaturedItems (stores : List (StorePtr F D)) : Vec (ItemPtr F D) :=
  let allFeatured := (View.ofList stores).transform getFeaturedItemsForStore
  allFeatured.forEach (fun ret elem =>
    let ret := ret.reserve (ret.size + elem.size)
    (View.ofList elem.elements).copy ret) .empty

end RangesPart1

/-! ### `3_ranges_part_2`, `4_concepts` and `5_modules` -/

/-- The joined view of the featured items, walked twice: to count them and to copy them. -/
def copyJoined (getFeaturedItemsForStore : StorePtr F D → View (ItemPtr F D))
    (stores : List (StorePtr F D)) : Vec (ItemPtr F D) :=
  let allFeatured := ((View.ofList stores).transform getFeaturedItemsForStore).join
  let asItems := Vec.empty.reserve allFeatured.distance
  allFeatured.copy asItems

namespace RangesPart2

/-- Nothing is computed before the view is walked. -/
def getFeaturedItemsForStore (store : StorePtr F D) : View (ItemPtr F D) :=
  (View.ofList store.items).filter featured |>.transform addressOf

def getAllFeaturedItems (stores : List (StorePtr F D)) : Vec (ItemPtr F D) :=
  copyJoined getFeaturedItemsForStore stores

end RangesPart2

namespace Concepts

def getFeaturedItemsForStore (store : StorePtr F D) : View (ItemPtr F D) :=
  (View.ofList store.items).filter featured |>.transform addressOf

def getAllFeaturedItems (stores : List (StorePtr F D)) : Vec (ItemPtr F D) :=
  copyJoined getFeaturedItemsForStore stores

end Concepts

namespace Modules

/-- With plain pointers in place of `gsl::not_null`. -/
def getFeaturedItemsForStore (store : StorePtr F D) : View (ItemPtr F D) :=
  (View.ofList store.items).filter featured |>.transform addressOf

def getAllFeaturedItems (stores : List (StorePtr F D)) : Vec (ItemPtr F D) :=
  copyJoined getFeaturedItemsForStore stores

end Modules

/-! ### The versions together -/

inductive Version where
  | base
  | rangesPart1
  | rangesPart2
  | concepts
  | modules
  deriving DecidableEq, Repr

/-- `get_all_featured_items` of each version. -/
def Version.getAllFeaturedItems : Version → List (StorePtr F D) → Vec (ItemPtr F D)
  | .base => Base.getAllFeaturedItems
  | .rangesPart1 => RangesPart1.getAllFeaturedItems
  | .rangesPart2 => RangesPart2.getAllFeaturedItems
  | .concepts => Concepts.getAllFeaturedItems
  | .modules => Modules.getAllFeaturedItems

end Gallery
