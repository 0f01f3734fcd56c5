import CppArchitecture.Builder.Basic

/-!
# Chains of builder calls

Every field of a built item is the value the last call that writes it has given it. The setters
write one field each and `using_data_from` writes all of them, so setters of different fields may
be exchanged, but none may be moved across `using_data_from`.
-/

namespace Builder

open Core

variable {F : Type}

/-- The fields of an item, apart from the date `build` puts in. -/
inductive Field where
  | name
  | photoUrl
  | description
  | price
  | featured
  deriving DecidableEq, Repr

/-- The values of a field. -/
abbrev Value (F : Type) : Field → Type
  | .name => String
  | .photoUrl => Option String
  | .description => String
  | .price => Option F
  | .featured => Bool

def Item.get (item : Item F) : (f : Field) → Value F f
  | .name => item.name
  | .photoUrl => item.photo_url
  | .description => item.description
  | .price => item.price
  | .featured => item.featured

/-- What a setter writes. -/
def Setter.writes : Setter F → (f : Field) → Option (Value F f)
  | .withDescription description, .description => some description
  | .withPhotoUrl url, .photoUrl => some (some url)
  | .withPrice price, .price => some (some price)
  | .markedAsFeatured, .featured => some true
  | _, _ => none

/-- `using_data_from` writes every field, with the record that is fetched. -/
def FetchingCall.writes [OfNat F 72] : FetchingCall F → (f : Field) → Option (Value F f)
  | .setter s, f => s.writes f
  | .usingDataFrom url, f => some ((fetchItem url : Item F).get f)

/-- The value of a field after the constructor and a chain of calls: that of the last call that
writes it, or else the name or default the constructor has written. -/
def lastValue {C : Type} (writes : C → (f : Field) → Option (Value F f)) (name : String)
    (cs : List C) (f : Field) : Value F f :=
  (lastWrite writes f cs).getD (({ name := name } : Item F).get f)

/-- The last writer of each field decides what is built, and nothing else does. -/
structure LastWriterWins {C : Type} (chain : String → List C → ℤ → Item F)
    (writes : C → (f : Field) → Option (Value F f)) : Prop where
  field : ∀ name cs now f, (chain name cs now).get f = lastValue writes name cs f
  decided : ∀ name name' cs ds now,
    (∀ f, lastValue writes name cs f = lastValue writes name' ds f) →
    chain name cs now = chain name' ds now
  exchange : ∀ name front c d back now, (∀ f, writes c f = none ∨ writes d f = none) →
    chain name (front ++ c :: d :: back) now = chain name (front ++ d :: c :: back) now

variable {item item' : Item F} {b : GenericItemBuilder F} {f : Field} {now : ℤ}

/-- An item is its fields and its date. -/
lemma Item.ext_get (hget : ∀ f, item.get f = item'.get f)
    (hdate : item.date_added = item'.date_added) : item = item' := by
  obtain ⟨name, photo_url, description, price, date_added, featured⟩ := item
  obtain rfl : name = item'.name := hget .name
  obtain rfl : photo_url = item'.photo_url := hget .photoUrl
  obtain rfl : description = item'.description := hget .description
  obtain rfl : price = item'.price := hget .price
  obtain rfl : featured = item'.featured := hget .featured
  obtain rfl : date_added = item'.date_added := hdate
  rfl

/-- The date is all `build` changes. -/
lemma get_build : (b.build now).get f = b.item_.get f := by
  cases f <;> rfl

lemma Setter.get_call (b : GenericItemBuilder F) (s : Setter F) (f : Field) :
    (s.call b).item_.get f = (s.writes f).getD (b.item_.get f) := by
  cases s <;> cases f <;> rfl

lemma FetchingCall.get_call [OfNat F 72] (b : FetchingItemBuilder F) (c : FetchingCall F)
    (f : Field) : (c.call b).item_.get f = (c.writes f).getD (b.item_.get f) := by
  match c with
  | .setter s => exact s.get_call b f
  | .usingDataFrom url => rfl

/-- It is enough that the last writer decides every field, as the date is that of `build`. -/
lemma lastWriterWins_of_field {C : Type} {chain : String → List C → ℤ → Item F}
    {writes : C → (f : Field) → Option (Value F f)}
    (hfield : ∀ name cs now f, (chain name cs now).get f = lastValue writes name cs f)
    (hdate : ∀ name cs now, (chain name cs now).date_added = now) :
    LastWriterWins chain writes := by
  have hdecided : ∀ name name' cs ds now,
      (∀ f, lastValue writes name cs f = lastValue writes name' ds f) →
      chain name cs now = chain name' ds now := by
    intro name name' cs ds now h
    refine Item.ext_get (fun f => ?_) ?_
    · rw [hfield, hfield, h]
    · rw [hdate, hdate]
  refine ⟨hfield, hdecided, fun name front c d back now h => ?_⟩
  apply hdecided
  intro f
  rw [lastValue, lastValue, lastWrite_swap (h f)]

/-- Calls that write their fields and no others make a builder whose last writer wins. -/
lemma lastWriterWins_of_get_call {C : Type}
    {call : GenericItemBuilder F → C → GenericItemBuilder F}
    {writes : C → (f : Field) → Option (Value F f)}
    (hcall : ∀ b c f, (call b c).item_.get f = (writes c f).getD (b.item_.get f)) :
    LastWriterWins (fun name cs now => (cs.foldl call (GenericItemBuilder.ofName name)).build now)
      writes := by
  apply lastWriterWins_of_field
  · intro name cs now f
    rw [get_build]
    exact foldl_lastWrite (fun (b : GenericItemBuilder F) f => b.item_.get f) hcall _ f
  · intro name cs now
    rfl

/-! ### Exchanging setters -/

/-- The field a setter writes. -/
def Setter.field : Setter F → Field
  | .withDescription _ => .description
  | .withPhotoUrl _ => .photoUrl
  | .withPrice _ => .price
  | .markedAsFeatured => .featured

lemma Setter.writes_eq_none_iff {s : Setter F} : s.writes f = none ↔ f ≠ s.field := by
  cases s <;> cases f <;> simp [Setter.writes, Setter.field]

/-- Setters of different fields write no field in common. -/
lemma Setter.writes_eq_none_or {s t : Setter F} (h : s.field ≠ t.field) (f : Field) :
    s.writes f = none ∨ t.writes f = none := by
  rw [Setter.writes_eq_none_iff, Setter.writes_eq_none_iff]
  by_contra hboth
  rw [not_or, not_not, not_not] at hboth
  exact h (hboth.1.symm.trans hboth.2)

lemma itemBuilder_lastWriterWins :
    LastWriterWins (ItemBuilder.chain (F := F)) Setter.writes :=
  lastWriterWins_of_get_call Setter.get_call

variable [OfNat F 72]

lemma fetchingItemBuilder_lastWriterWins :
    LastWriterWins (FetchingItemBuilder.chain (F := F)) FetchingCall.writes :=
  lastWriterWins_of_get_call FetchingCall.get_call

/-- A value set before `using_data_from` is overwritten, and one set after it is not. -/
lemma chain_ne_of_get_ne {name url : String} {front : List (FetchingCall F)} {s : Setter F}
    {v : Value F f} (hs : s.writes f = some v) (hv : (fetchItem url : Item F).get f ≠ v) :
    FetchingItemBuilder.chain name (front ++ [FetchingCall.setter s, .usingDataFrom url]) now ≠
      FetchingItemBuilder.chain name (front ++ [FetchingCall.usingDataFrom url, .setter s]) now := by
  intro heq
  have hget := congrFun (congrArg Item.get heq) f
  rw [fetchingItemBuilder_lastWriterWins.field, fetchingItemBuilder_lastWriterWins.field] at hget
  simp only [lastValue, lastWrite_append, lastWrite, FetchingCall.writes, hs] at hget
  exact hv hget

/-- Builders are last-writer-wins. Setters of different fields may be exchanged anywhere in a
chain, but a setter may not be moved across `using_data_from`. -/
theorem builders_last_writer_wins :
    LastWriterWins (ItemBuilder.chain (F := F)) Setter.writes ∧
    LastWriterWins (FetchingItemBuilder.chain (F := F)) FetchingCall.writes ∧
    (∀ (s t : Setter F), s.field ≠ t.field →
      (∀ name front back now, ItemBuilder.chain name (front ++ s :: t :: back) now =
        ItemBuilder.chain name (front ++ t :: s :: back) now) ∧
      ∀ name front back now,
        FetchingItemBuilder.chain name (front ++ FetchingCall.setter s :: .setter t :: back) now =
          FetchingItemBuilder.chain name
            (front ++ FetchingCall.setter t :: .setter s :: back) now) ∧
    (∀ name (front : List (FetchingCall F)) s url now f v, s.writes f = some v →
      (fetchItem url : Item F).get f ≠ v →
      FetchingItemBuilder.chain name (front ++ [FetchingCall.setter s, .usingDataFrom url]) now ≠
        FetchingItemBuilder.chain name
          (front ++ [FetchingCall.usingDataFrom url, .setter s]) now) ∧
    ∀ name (front : List (FetchingCall F)) url now,
      FetchingItemBuilder.chain name
          (front ++ [FetchingCall.setter .markedAsFeatured, .usingDataFrom url]) now ≠
        FetchingItemBuilder.chain name
          (front ++ [FetchingCall.usingDataFrom url, .setter .markedAsFeatured]) now := by
  refine ⟨itemBuilder_lastWriterWins, fetchingItemBuilder_lastWriterWins, ?_, ?_, ?_⟩
  · intro s t hst
    have hnone := Setter.writes_eq_none_or hst
    refine ⟨fun name front back now => ?_, fun name front back now => ?_⟩
    · exact itemBuilder_lastWriterWins.exchange name front s t back now hnone
    · exact fetchingItemBuilder_lastWriterWins.exchange name front (.setter s) (.setter t) back now
        hnone
  · intro name front s url now f v hs hv
    exact chain_ne_of_get_ne hs hv
  · intro name front url now
    have hfeatured : (fetchItem url : Item F).get .featured ≠ true := by
      simp only [Item.get, fetchItem]
      split_ifs <;> exact Bool.false_ne_true
    exact chain_ne_of_get_ne (f := .featured) rfl hfeatured

end Builder
