import CppArchitecture.Gallery.Basic

/-!
# The featured items

All versions collect the featured items of the stores, in the order of the stores and of the
items in them.
-/

namespace Gallery

open Core

variable {F D : Type}

/-- The featured items store by store. -/
def featuredItems (stores : List (StorePtr F D)) : List (ItemPtr F D) :=
  stores.flatMap fun store => store.items.filter featured

@[simp] lemma map_addressOf (items : List (ItemPtr F D)) : items.map addressOf = items :=
  List.map_id items

/-- Appending list after list is appending the concatenation. -/
lemma elements_foldl_append {α β : Type} {body : Vec β → α → Vec β} {f : α → List β}
    (hbody : ∀ acc a, (body acc a).elements = acc.elements ++ f a) (as : List α) (acc : Vec β) :
    (as.foldl body acc).elements = acc.elements ++ as.flatMap f := by
  induction as generalizing acc with
  | nil => simp
  | cons a as ih => simp [ih, hbody]

/-- A store's items are copied behind those of the stores before it. -/
lemma elements_copy_reserve (acc featuredInStore : Vec (ItemPtr F D)) (n : ℕ) :
    ((View.ofList featuredInStore.elements).copy (acc.reserve n)).elements =
      acc.elements ++ featuredInStore.elements := by
  rw [View.elements_copy, View.elements_ofList, Vec.elements_reserve]

namespace Base

lemma elements_getFeaturedItemsForStore (store : StorePtr F D) :
    (getFeaturedItemsForStore store).elements = store.items.filter featured := by
  rw [getFeaturedItemsForStore, View.forEach_eq, View.elements_ofList]
  have hloop := Vec.elements_foldl_pushBack .empty (store.items.filter featured)
  rwa [List.foldl_filter, Vec.elements_empty, List.nil_append] at hloop

lemma elements_getAllFeaturedItems (stores : List (StorePtr F D)) :
    (getAllFeaturedItems stores).elements = featuredItems stores := by
  rw [getAllFeaturedItems, View.forEach_eq, View.elements_ofList]
  apply elements_foldl_append
  intro acc store
  rw [elements_copy_reserve, elements_getFeaturedItemsForStore]

end Base

namespace RangesPart1

lemma elements_getFeaturedItemsForStore (store : StorePtr F D) :
    (getFeaturedItemsForStore store).elements = store.items.filter featured := by
  simp [getFeaturedItemsForStore]

lemma elements_getAllFeaturedItems (stores : List (StorePtr F D)) :
    (getAllFeaturedItems stores).elements = featuredItems stores := by
  rw [getAllFeaturedItems, View.forEach_eq, View.elements_transform, View.elements_ofList,
    List.foldl_map]
  apply elements_foldl_append
  intro acc store
  rw [elements_copy_reserve, elements_getFeaturedItemsForStore]

end RangesPart1

lemma elements_copyJoined {getFeaturedItemsForStore : StorePtr F D → View (ItemPtr F D)}
    (hget : ∀ store, (getFeaturedItemsForStore store).elements = store.items.filter featured)
    (stores : List (StorePtr F D)) :
    (copyJoined getFeaturedItemsForStore stores).elements = featuredItems stores := by
  rw [copyJoined, View.elements_copy, Vec.elements_reserve, View.elements_join,
    View.elements_transform, View.elements_ofList, Vec.elements_empty, List.nil_append,
    List.flatMap_map]
  exact congrArg (stores.flatMap ·) (funext hget)

lemma RangesPart2.elements_getFeaturedItemsForStore (store : StorePtr F D) :
    (getFeaturedItemsForStore store).elements = store.items.filter featured := by
  simp [getFeaturedItemsForStore]

/-- Whatever the version, the featured items are collected in order. -/
lemma Version.elements_getAllFeaturedItems (version : Version) (stores : List (StorePtr F D)) :
    (version.getAllFeaturedItems stores).elements = featuredItems stores := by
  match version with
  | .base => exact Base.elements_getAllFeaturedItems stores
  | .rangesPart1 => exact RangesPart1.elements_getAllFeaturedItems stores
  | .rangesPart2 | .concepts | .modules =>
    exact elements_copyJoined RangesPart2.elements_getFeaturedItemsForStore stores

/-- The versions return the same items: all the featured ones, in the order of the stores and of
the items in them, as often as they occur. -/
theorem getAllFeaturedItems_agree (version other : Version) (stores : List (StorePtr F D)) :
    (version.getAllFeaturedItems stores).elements = (other.getAllFeaturedItems stores).elements ∧
    (version.getAllFeaturedItems stores).elements =
      (stores.flatMap StorePtr.items).filter featured := by
  rw [Version.elements_getAllFeaturedItems, Version.elements_getAllFeaturedItems,
    List.filter_flatMap]
  exact ⟨rfl, rfl⟩

end Gallery
