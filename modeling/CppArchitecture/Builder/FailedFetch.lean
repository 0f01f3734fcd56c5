import CppArchitecture.Builder.Chains

/-!
# Fetches that find nothing

For a URL it does not know, `fetch_item` returns an empty item, and `using_data_from` puts it in
the place of the one under construction. What was set before is lost unless it is set again, so
a failed fetch loses nothing exactly if there was nothing to lose.
-/

namespace Builder

open Core

variable {F : Type} [OfNat F 72]

/-- The chain of setters with a fetch in between builds what the setters build without it, apart
from the date. -/
def LosesNothing (name : String) (before : List (Setter F)) (url : String)
    (after : List (Setter F)) : Prop :=
  ∀ now now' f,
    (FetchingItemBuilder.chain name
      (before.map .setter ++ .usingDataFrom url :: after.map .setter) now).get f =
    (FetchingItemBuilder.chain name (before.map .setter ++ after.map .setter) now').get f

/-- A setter of the field is among the calls. -/
def IsSet (ss : List (Setter F)) (f : Field) : Prop := ∃ s ∈ ss, s.field = f

/-- No name was given, and every field that was set is set again. Only a description that was last
set to the empty one need not be. -/
structure NothingToLose (name : String) (before after : List (Setter F)) : Prop where
  name : name = ""
  description : IsSet after .description ∨
    ∀ front d back, before = front ++ .withDescription d :: back → ¬ IsSet back .description →
      d = ""
  others : ∀ f, f ≠ .description → IsSet before f → IsSet after f

variable {name url : String} {before after : List (Setter F)} {f : Field}

/-- The chain without the fetch, field by field. -/
lemma get_chain_setters (name : String) (before after : List (Setter F)) (now : ℤ) (f : Field) :
    (FetchingItemBuilder.chain name (before.map .setter ++ after.map .setter) now).get f =
      ((lastWrite Setter.writes f after).or (lastWrite Setter.writes f before)).getD
        (({ name := name } : Item F).get f) := by
  rw [fetchingItemBuilder_lastWriterWins.field, lastValue, lastWrite_append, lastWrite_map,
    lastWrite_map]
  rfl

/-- The fetched record stands where no later setter writes. -/
lemma get_chain_usingDataFrom (name : String) (before : List (Setter F)) (url : String)
    (after : List (Setter F)) (now : ℤ) (f : Field) :
    (FetchingItemBuilder.chain name
      (before.map .setter ++ .usingDataFrom url :: after.map .setter) now).get f =
      (lastWrite Setter.writes f after).getD ((fetchItem url : Item F).get f) := by
  rw [fetchingItemBuilder_lastWriterWins.field, lastValue, lastWrite_append, lastWrite,
    lastWrite_map]
  change (((lastWrite Setter.writes f after).or _).or _).getD _ = _
  cases lastWrite Setter.writes f after <;> rfl

section

omit [OfNat F 72]

lemma lastWrite_setters_eq_none_iff {ss : List (Setter F)} :
    lastWrite Setter.writes f ss = none ↔ ¬ IsSet ss f := by
  rw [lastWrite_eq_none_iff, IsSet, not_exists]
  simp only [Setter.writes_eq_none_iff, ne_eq, not_and, eq_comm]

/-- Only a description can be set to what it is in an empty item. -/
lemma Setter.writes_ne_empty {s : Setter F} {v : Value F f} (hf : f ≠ .description)
    (hv : s.writes f = some v) : v ≠ ({} : Item F).get f := by
  cases s <;> cases f <;> cases hv <;> simp [Item.get] at hf ⊢

/-- Any other field is as in an empty item only if it was never set. -/
lemma lastWrite_eq_empty_iff (hf : f ≠ .description) :
    (lastWrite Setter.writes f before).getD (({ name := name } : Item F).get f) =
      ({} : Item F).get f ↔
    ¬ IsSet before f ∧ ({ name := name } : Item F).get f = ({} : Item F).get f := by
  rw [← lastWrite_setters_eq_none_iff]
  cases hlast : lastWrite Setter.writes f before with
  | none => simp
  | some v =>
    obtain ⟨_, s, _, _, hs, _⟩ := lastWrite_eq_some_iff.mp hlast
    simpa using Setter.writes_ne_empty hf hs

/-- A description is empty if the last one that was set is. -/
lemma lastWrite_description_eq_empty_iff :
    (lastWrite Setter.writes .description before).getD "" = "" ↔
    ∀ front d back, before = front ++ .withDescription d :: back → ¬ IsSet back .description →
      d = "" := by
  constructor
  · intro h front d back hbefore hback
    have hnone := lastWrite_eq_none_iff.mp (lastWrite_setters_eq_none_iff.mpr hback)
    have hlast : lastWrite Setter.writes .description before = some d :=
      lastWrite_eq_some_iff.mpr ⟨front, .withDescription d, back, hbefore, rfl, hnone⟩
    rwa [hlast] at h
  · intro h
    cases hlast : lastWrite Setter.writes .description before with
    | none => rfl
    | some v =>
      obtain ⟨front, s, back, hbefore, hs, hback⟩ := lastWrite_eq_some_iff.mp hlast
      have hnot := lastWrite_setters_eq_none_iff.mp (lastWrite_eq_none_iff.mpr hback)
      cases s with
      | withDescription d =>
        cases hs
        exact h front v back hbefore hnot
      | withPhotoUrl | withPrice | markedAsFeatured => cases hs

/-- There is nothing to lose if every field is set again, or was as in an empty item. -/
lemma nothingToLose_iff : NothingToLose name before after ↔
    ∀ f, IsSet after f ∨
      (lastWrite Setter.writes f before).getD (({ name := name } : Item F).get f) =
        ({} : Item F).get f := by
  constructor
  · intro h f
    by_cases hf : f = .description
    · subst hf
      exact h.description.imp_right lastWrite_description_eq_empty_iff.mpr
    · obtain rfl := h.name
      rw [lastWrite_eq_empty_iff hf, and_iff_left rfl]
      exact or_not_of_imp (h.others f hf)
  · intro h
    have hname : ¬ IsSet after .name := by
      rintro ⟨s, _, hs⟩
      cases s <;> cases hs
    refine ⟨?_, ?_, ?_⟩
    · have hempty := (h .name).resolve_left hname
      rw [lastWrite_eq_empty_iff (by decide)] at hempty
      exact hempty.2
    · exact (h .description).imp_right lastWrite_description_eq_empty_iff.mp
    · intro f hf hbefore
      refine (h f).resolve_right ?_
      rw [lastWrite_eq_empty_iff hf]
      exact fun hnot => hnot.1 hbefore

end

/-- A field is lost unless it is set again, or was as in an empty item. -/
lemma get_eq_iff (hurl : (fetchItem url : Item F) = {}) (now now' : ℤ) :
    (FetchingItemBuilder.chain name
      (before.map .setter ++ .usingDataFrom url :: after.map .setter) now).get f =
    (FetchingItemBuilder.chain name (before.map .setter ++ after.map .setter) now').get f ↔
      IsSet after f ∨
      (lastWrite Setter.writes f before).getD (({ name := name } : Item F).get f) =
        ({} : Item F).get f := by
  rw [get_chain_usingDataFrom, get_chain_setters, hurl]
  cases hafter : lastWrite Setter.writes f after with
  | none =>
    have hnot := lastWrite_setters_eq_none_iff.mp hafter
    rw [Option.none_or, or_iff_right hnot]
    exact eq_comm
  | some v =>
    have hset : IsSet after f := by
      by_contra hnot
      rw [lastWrite_setters_eq_none_iff.mpr hnot] at hafter
      cases hafter
    exact iff_of_true rfl (.inl hset)

/-- A fetch that finds nothing loses nothing exactly if there is nothing to lose. -/
theorem losesNothing_iff (name : String) (before : List (Setter F)) (url : String)
    (after : List (Setter F)) (hurl : (fetchItem url : Item F) = {}) :
    LosesNothing name before url after ↔ NothingToLose name before after := by
  rw [nothingToLose_iff, LosesNothing]
  constructor
  · intro h f
    exact (get_eq_iff hurl 0 0).mp (h 0 0 f)
  · intro h now now' f
    exact (get_eq_iff hurl now now').mpr (h f)

/-- A description that is set again after the fetch. -/
theorem losesNothing_iff_description :
    LosesNothing "" [.withDescription "A decent one"] "https://example.com/items/pot"
      [Setter.withDescription (F := ℕ) "Better"] ↔
    NothingToLose "" [.withDescription "A decent one"]
      [Setter.withDescription (F := ℕ) "Better"] :=
  losesNothing_iff "" _ "https://example.com/items/pot" _ (by decide)

/-- The name that the constructor was given is lost. -/
theorem failed_fetch_loses_name :
    ¬ ∀ (name : String) (before : List (Setter ℕ)) (url : String) (after : List (Setter ℕ)),
      (fetchItem url : Item ℕ) = {} → LosesNothing name before url after := by
  intro h
  have hlost := h "Pot" [] "https://example.com/items/pot" [] (by decide) 0 0 .name
  revert hlost
  decide

end Builder
