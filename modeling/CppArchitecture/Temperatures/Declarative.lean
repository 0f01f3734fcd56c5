import CppArchitecture.Temperatures.Imperative

/-!
# The declarative temperature search

`legacy_declarative` looks for two neighbouring temperatures more than five degrees apart. The
imperative search compares every temperature with all the later ones, so the two agree exactly if
no temperature deviates before the first one that is apart from its neighbour.
-/

namespace Temperatures

open Core

variable {T : Type} [Ring T] [LinearOrder T]

/-- `legacy_declarative`, for any vector of temperatures. -/
def legacyDeclarative (temperatures : List T) : Option UInt64 :=
  let it := adjacentFind farApart temperatures
  if it ≠ temperatures.length then some (UInt64.ofNat it) else none

/-- Both searches return, and they return the same. -/
def SearchesAgree (temperatures : List T) : Prop :=
  imperativeAkaBad temperatures = .ok (legacyDeclarative temperatures)

variable {temperatures : List T}

lemma adjacentAt_iff_apart {k : ℕ} :
    AdjacentAt farApart temperatures k ↔ Apart temperatures k (k + 1) := by
  simp [AdjacentAt, Apart, farApart]

/-- Neighbours that are apart make the first of them deviate. -/
lemma Apart.deviates {k : ℕ} (h : Apart temperatures k (k + 1)) : Deviates temperatures k :=
  ⟨k + 1, Nat.lt_succ_self k, h⟩

/-- The search returns the first temperature that is apart from the one after it. -/
lemma legacyDeclarative_run (hlen : temperatures.length < 2 ^ 64) :
    (∃ i : UInt64, IsLeast {k | Apart temperatures k (k + 1)} i.toNat ∧
      legacyDeclarative temperatures = some i) ∨
    ((∀ k, ¬ Apart temperatures k (k + 1)) ∧ legacyDeclarative temperatures = none) := by
  have hspec := adjacentFind_spec farApart temperatures
  simp only [adjacentAt_iff_apart] at hspec
  rcases hspec with ⟨hat, hfirst⟩ | ⟨hend, hnone⟩
  · have hlt := Nat.lt_of_succ_lt hat.deviates.succ_lt
    refine .inl ⟨_, ?_, if_pos hlt.ne⟩
    rw [toNat_ofNat_of_lt_length hlen hlt]
    refine ⟨hat, fun k hk => ?_⟩
    by_contra hlt
    exact hfirst k (not_le.mp hlt) hk
  · exact .inr ⟨hnone, if_neg (not_not.mpr hend)⟩

/-- The searches agree exactly if every temperature that deviates from a later one has, at its
place or before it, one that is apart from its neighbour. -/
theorem searchesAgree_iff (hlen : temperatures.length < 2 ^ 64) :
    SearchesAgree temperatures ↔
      ∀ i j, i < j → Apart temperatures i j → ∃ k ≤ i, Apart temperatures k (k + 1) := by
  rw [SearchesAgree]
  rcases imperativeAkaBad_run hlen with ⟨i, hi, hrun⟩ | ⟨hnone, hrun⟩ <;>
  rcases legacyDeclarative_run hlen with ⟨k, hk, hlegacy⟩ | ⟨hnear, hlegacy⟩
  · rw [hrun, hlegacy, Except.ok.injEq, Option.some.injEq]
    constructor
    · rintro rfl a b hab hapart
      exact ⟨_, hi.2 ⟨b, hab, hapart⟩, hk.1⟩
    · intro h
      -- the first deviating temperature is apart from its neighbour
      obtain ⟨j, hij, hapart⟩ := hi.1
      obtain ⟨l, hli, hl⟩ := h _ j hij hapart
      exact UInt64.toNat_inj.mp (le_antisymm (hi.2 hk.1.deviates) ((hk.2 hl).trans hli))
  · rw [hrun, hlegacy]
    refine ⟨nofun, fun h => ?_⟩
    obtain ⟨j, hij, hapart⟩ := hi.1
    obtain ⟨l, _, hl⟩ := h _ j hij hapart
    exact absurd hl (hnear l)
  · exact absurd hk.1.deviates (hnone _)
  · rw [hrun, hlegacy]
    exact ⟨fun _ i j hij hapart => absurd ⟨j, hij, hapart⟩ (hnone i), fun _ => rfl⟩

/-- A rise of eight degrees in the first step is what both find. -/
theorem searchesAgree_iff_rise : SearchesAgree ([0, 8, 8, -1] : List ℤ) := by
  refine (searchesAgree_iff (by decide)).mpr ?_
  intro i j _ _
  exact ⟨0, Nat.zero_le i, 0, 8, rfl, rfl, by decide⟩

/-- Of the temperatures of the program the imperative search finds the first, eleven degrees
below the fourth, and the declarative one the third, eight degrees below it. -/
theorem searches_disagree : ¬ ∀ temperatures : List ℤ, temperatures.length < 2 ^ 64 →
    SearchesAgree temperatures := by
  intro hall
  have hlen : ([-3, 2, 0, 8, -10, -7] : List ℤ).length < 2 ^ 64 := by decide
  have hagree := hall _ hlen
  have hlegacy : legacyDeclarative ([-3, 2, 0, 8, -10, -7] : List ℤ) = some 2 := by decide
  have hdev : Deviates ([-3, 2, 0, 8, -10, -7] : List ℤ) 0 :=
    ⟨3, by decide, -3, 8, rfl, rfl, by decide⟩
  rw [SearchesAgree, hlegacy] at hagree
  rcases imperativeAkaBad_run hlen with ⟨i, hi, hrun⟩ | ⟨hnone, _⟩
  · rw [hrun] at hagree
    cases hagree
    exact absurd (hi.2 hdev) (by decide)
  · exact hnone 0 hdev

end Temperatures
