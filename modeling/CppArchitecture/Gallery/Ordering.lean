import CppArchitecture.Core.Sorting
import CppArchitecture.Gallery.Featured

/-!
# The order of the gallery

The collected items are sorted by the date they were added. The sorts are not stable, and the
versions compare in different ways; still the gallery shows the same dates whatever the version
and however the stores and their items are ordered, and the same items if their dates differ.
-/

namespace Gallery

open Core

variable {F D : Type} [LinearOrder D]

/-- `&Item::date_added`, which dereferences the pointer. -/
def dateAdded (item : ItemPtr F D) : D := item.pointee.date_added

/-! ### What the sorts may leave in place of the items -/

namespace Base

def dateComparator (left right : ItemPtr F D) : Bool :=
  decide (left.pointee.date_added > right.pointee.date_added)

def OrderItemsByDateAdded : List (ItemPtr F D) → List (ItemPtr F D) → Prop :=
  IsSortOf dateComparator

end Base

namespace RangesPart1

def OrderItemsByDateAdded : List (ItemPtr F D) → List (ItemPtr F D) → Prop :=
  IsProjectedSortOf greater dateAdded

end RangesPart1

namespace RangesPart2

def OrderItemsByDateAdded : List (ItemPtr F D) → List (ItemPtr F D) → Prop :=
  IsProjectedSortOf greater dateAdded

end RangesPart2

namespace Concepts

def OrderItemsByDateAdded : List (ItemPtr F D) → List (ItemPtr F D) → Prop :=
  IsProjectedSortOf greater dateAdded

end Concepts

namespace Modules

def OrderItemsByDateAdded : List (ItemPtr F D) → List (ItemPtr F D) → Prop :=
  IsProjectedSortOf greater dateAdded

end Modules

/-- `order_items_by_date_added` of each version. -/
def Version.OrderItemsByDateAdded : Version → List (ItemPtr F D) → List (ItemPtr F D) → Prop
  | .base => Base.OrderItemsByDateAdded
  | .rangesPart1 => RangesPart1.OrderItemsByDateAdded
  | .rangesPart2 => RangesPart2.OrderItemsByDateAdded
  | .concepts => Concepts.OrderItemsByDateAdded
  | .modules => Modules.OrderItemsByDateAdded

/-- The comparison of `1_base` is that of the other versions. -/
lemma Base.orderItemsByDateAdded_iff {items items' : List (ItemPtr F D)} :
    OrderItemsByDateAdded items items' ↔ IsProjectedSortOf greater dateAdded items items' :=
  Iff.rfl

lemma Version.orderItemsByDateAdded_iff {version : Version} {items items' : List (ItemPtr F D)} :
    version.OrderItemsByDateAdded items items' ↔
      IsProjectedSortOf greater dateAdded items items' := by
  match version with
  | .base => exact Base.orderItemsByDateAdded_iff
  | .rangesPart1 | .rangesPart2 | .concepts | .modules => exact Iff.rfl

/-! ### The gallery -/

/-- What `main` of a version may put into the gallery. -/
def Version.Selects (version : Version) (stores : List (StorePtr F D))
    (items : List (ItemPtr F D)) : Prop :=
  version.OrderItemsByDateAdded (version.getAllFeaturedItems stores).elements items

omit [LinearOrder D] in
/-- The same stores in any order, each with the same items in any order. -/
def SameStores (stores others : List (StorePtr F D)) : Prop :=
  ∃ between, stores.Perm between ∧
    List.Forall₂ (fun s t => s.pointee.items.Perm t.pointee.items) between others

/-- The items are the featured ones of the stores, newest first. -/
def NewestFeatured (stores : List (StorePtr F D)) (items : List (ItemPtr F D)) : Prop :=
  items.Perm ((stores.flatMap StorePtr.items).filter featured) ∧
    items.Pairwise fun a b => dateAdded a ≥ dateAdded b

omit [LinearOrder D] in
/-- The items of a store, wherever they stand. -/
lemma map_pointee_items (store : StorePtr F D) :
    store.items.map (·.pointee) = store.pointee.items := by
  apply List.ext_getElem
  · simp [StorePtr.items]
  · intro i hi hi'
    simp [StorePtr.items]

omit [LinearOrder D] in
lemma map_pointee_featuredItems (stores : List (StorePtr F D)) :
    (featuredItems stores).map (·.pointee) =
      stores.flatMap fun store => store.pointee.items.filter (·.featured) := by
  rw [featuredItems, List.map_flatMap]
  congr 1
  funext store
  rw [← map_pointee_items, List.filter_map]
  rfl

omit [LinearOrder D] in
lemma SameStores.featuredItems_perm {stores others : List (StorePtr F D)}
    (h : SameStores stores others) :
    ((featuredItems stores).map (·.pointee)).Perm ((featuredItems others).map (·.pointee)) := by
  obtain ⟨between, hperm, hitems⟩ := h
  rw [map_pointee_featuredItems, map_pointee_featuredItems]
  refine (hperm.flatMap_right _).trans (List.Perm.flatten_congr ?_)
  rw [List.forall₂_map_left_iff, List.forall₂_map_right_iff]
  apply hitems.imp
  intro s t hst
  exact hst.filter _

lemma Version.Selects.newestFeatured {version : Version} {stores : List (StorePtr F D)}
    {items : List (ItemPtr F D)} (h : version.Selects stores items) :
    NewestFeatured stores items := by
  rw [Version.Selects, Version.orderItemsByDateAdded_iff,
    Version.elements_getAllFeaturedItems] at h
  refine ⟨?_, h.keys_ge⟩
  rw [List.filter_flatMap]
  exact h.perm

/-- Any two versions, on the same stores in whatever order: both show the featured items newest
first, with the same dates, and the same items if different featured items differ in date. If no
item has moved within its store, the items are the same ones in memory. -/
theorem selects_independent {version other : Version} {stores others : List (StorePtr F D)}
    {items items' : List (ItemPtr F D)} (hsame : SameStores stores others)
    (h : version.Selects stores items) (h' : other.Selects others items') :
    NewestFeatured stores items ∧ NewestFeatured others items' ∧
    items.map dateAdded = items'.map dateAdded ∧
    ((∀ a ∈ (stores.flatMap StorePtr.items).filter featured,
        ∀ b ∈ (stores.flatMap StorePtr.items).filter featured,
        dateAdded a = dateAdded b → a.pointee = b.pointee) →
      items.map (·.pointee) = items'.map (·.pointee)) ∧
    (stores.Perm others →
      (∀ a ∈ (stores.flatMap StorePtr.items).filter featured,
        ∀ b ∈ (stores.flatMap StorePtr.items).filter featured,
        dateAdded a = dateAdded b → a = b) →
      items = items') := by
  have hnew := h.newestFeatured
  have hnew' := h'.newestFeatured
  have hvalues : (items.map (·.pointee)).Perm (items'.map (·.pointee)) := by
    refine (hnew.1.map _).trans (.trans ?_ (hnew'.1.map _).symm)
    simp only [List.filter_flatMap]
    exact hsame.featuredItems_perm
  have hdates : (items.map (·.pointee)).Pairwise fun a b => a.date_added ≥ b.date_added :=
    List.pairwise_map.mpr hnew.2
  have hdates' : (items'.map (·.pointee)).Pairwise fun a b => a.date_added ≥ b.date_added :=
    List.pairwise_map.mpr hnew'.2
  refine ⟨hnew, hnew', ?_, ?_, ?_⟩
  · have hmap := map_eq_of_perm_of_ge hvalues hdates hdates'
    rwa [List.map_map, List.map_map] at hmap
  · intro hdistinct
    apply eq_of_perm_of_ge hvalues hdates hdates'
    intro a ha b hb
    obtain ⟨p, hp, rfl⟩ := List.mem_map.mp ha
    obtain ⟨q, hq, rfl⟩ := List.mem_map.mp hb
    exact hdistinct p (hnew.1.mem_iff.mp hp) q (hnew.1.mem_iff.mp hq)
  · intro hstores hdistinct
    have hitems : items.Perm items' :=
      hnew.1.trans (((hstores.flatMap_right _).filter _).trans hnew'.1.symm)
    apply eq_of_perm_of_ge hitems hnew.2 hnew'.2
    intro a ha b hb
    exact hdistinct a (hnew.1.mem_iff.mp ha) b (hnew.1.mem_iff.mp hb)

/-! ### The favourite stores of the sample customer -/

/-- A bee keeper's store, with one of its two items featured. -/
def honeyStore : StorePtr ℕ ℕ where
  address := 0
  pointee := ⟨[⟨"Honey", none, "Straight outta Compton's apiary", some 9, 60, false⟩,
    ⟨"Oscypek", none, "Tasty smoked cheese from the Tatra mountains", some 1, 0, true⟩]⟩

/-- A potter's store. -/
def bowlStore : StorePtr ℕ ℕ where
  address := 1
  pointee := ⟨[⟨"Handmade painted ceramic bowls", some "http://example.com/beautiful_bowl.png",
    "Hand-crafted and hand-decorated bowls made of fired clay", none, 48, true⟩]⟩

/-- The featured items of both stores, the newer one first. -/
def newestSample : List (ItemPtr ℕ ℕ) := (featuredItems [honeyStore, bowlStore]).reverse

/-- The bowls are shown before the cheese, whichever store comes first. -/
theorem selects_independent_sample :
    NewestFeatured [honeyStore, bowlStore] newestSample ∧
      NewestFeatured [bowlStore, honeyStore] newestSample := by
  have hsame : SameStores [honeyStore, bowlStore] [bowlStore, honeyStore] :=
    ⟨[bowlStore, honeyStore], .swap _ _ _, .cons (.refl _) (.cons (.refl _) .nil)⟩
  have hbase : Version.base.Selects [honeyStore, bowlStore] newestSample := by
    rw [Version.Selects, Version.elements_getAllFeaturedItems]
    exact ⟨List.reverse_perm _, by decide⟩
  have hmodules : Version.modules.Selects [bowlStore, honeyStore] newestSample := by
    rw [Version.Selects, Version.elements_getAllFeaturedItems]
    exact ⟨.refl _, by decide⟩
  obtain ⟨hnew, hnew', -⟩ := selects_independent hsame hbase hmodules
  exact ⟨hnew, hnew'⟩

end Gallery
