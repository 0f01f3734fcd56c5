import Mathlib.Data.Finmap

/-!
# Tables in which the first entry wins

A table keeps the entry a key has got first. What it holds for a key after a sequence of entries
is the first of them with that key, and entries under different keys may come in any order.
-/

namespace Core

variable {K V : Type}

/-- The entries of a map from keys to values. -/
abbrev Table (K V : Type) := Finmap fun _ : K => V

/-- `v` is the value of the first pair with key `k`. -/
def FirstUnder (ps : List (K × V)) (k : K) (v : V) : Prop :=
  ∃ before rest, ps = before ++ (k, v) :: rest ∧ ∀ p ∈ before, p.1 ≠ k

lemma firstUnder_cons_self {ps : List (K × V)} {k : K} {v : V} : FirstUnder ((k, v) :: ps) k v :=
  ⟨[], ps, rfl, nofun⟩

lemma FirstUnder.cons {ps : List (K × V)} {k : K} {v : V} {p : K × V} (h : FirstUnder ps k v)
    (hp : p.1 ≠ k) : FirstUnder (p :: ps) k v := by
  obtain ⟨before, rest, rfl, hbefore⟩ := h
  exact ⟨p :: before, rest, rfl, List.forall_mem_cons.mpr ⟨hp, hbefore⟩⟩

/-- A key has a first pair, or none. -/
lemma firstUnder_or (ps : List (K × V)) (k : K) :
    (∀ p ∈ ps, p.1 ≠ k) ∨ ∃ v, FirstUnder ps k v := by
  induction ps with
  | nil => exact .inl nofun
  | cons p ps ih =>
    by_cases hp : p.1 = k
    · refine .inr ⟨p.2, ?_⟩
      subst hp
      exact firstUnder_cons_self
    · rcases ih with hps | ⟨v, hv⟩
      · exact .inl (List.forall_mem_cons.mpr ⟨hp, hps⟩)
      · exact .inr ⟨v, hv.cons hp⟩

variable [DecidableEq K]

namespace Table

/-- `table.emplace(k, v)`, which inserts only if there is no entry. -/
def emplace (t : Table K V) (k : K) (v : V) : Table K V := if k ∈ t then t else t.insert k v

/-- The pairs are emplaced one after the other. -/
def emplaceAll (t : Table K V) (ps : List (K × V)) : Table K V :=
  ps.foldl (fun t p => t.emplace p.1 p.2) t

variable {t : Table K V} {k l : K} {v w : V} {ps : List (K × V)}

lemma emplace_of_mem (h : k ∈ t) : t.emplace k v = t := if_pos h

lemma emplace_of_notMem (h : k ∉ t) : t.emplace k v = t.insert k v := if_neg h

lemma lookup_emplace_of_ne (h : l ≠ k) : (t.emplace k v).lookup l = t.lookup l := by
  by_cases hk : k ∈ t
  · rw [emplace_of_mem hk]
  · rw [emplace_of_notMem hk, Finmap.lookup_insert_of_ne _ h]

lemma lookup_emplace_self (h : t.lookup k = none) : (t.emplace k v).lookup k = some v := by
  rw [emplace_of_notMem (Finmap.lookup_eq_none.mp h), Finmap.lookup_insert]

/-- An entry is never replaced. -/
lemma lookup_emplace_of_some (h : t.lookup l = some w) : (t.emplace k v).lookup l = some w := by
  by_cases hl : l = k
  · rw [emplace_of_mem (hl ▸ Finmap.mem_of_lookup_eq_some h), h]
  · rw [lookup_emplace_of_ne hl, h]

lemma emplaceAll_append {qs : List (K × V)} :
    t.emplaceAll (ps ++ qs) = (t.emplaceAll ps).emplaceAll qs :=
  List.foldl_append

lemma emplaceAll_cons : t.emplaceAll ((k, v) :: ps) = (t.emplace k v).emplaceAll ps := rfl

lemma lookup_emplaceAll_of_some (h : t.lookup k = some v) :
    (t.emplaceAll ps).lookup k = some v := by
  induction ps generalizing t with
  | nil => exact h
  | cons p ps ih => exact ih (lookup_emplace_of_some h)

lemma lookup_emplaceAll_of_forall_ne (h : ∀ p ∈ ps, p.1 ≠ k) :
    (t.emplaceAll ps).lookup k = t.lookup k := by
  induction ps generalizing t with
  | nil => rfl
  | cons p ps ih =>
    obtain ⟨hp, hps⟩ := List.forall_mem_cons.mp h
    exact (ih hps).trans (lookup_emplace_of_ne (Ne.symm hp))

/-- What comes of a key is decided by what the table held for it. -/
lemma lookup_emplaceAll_congr {t' : Table K V} (h : t.lookup k = t'.lookup k) :
    (t.emplaceAll ps).lookup k = (t'.emplaceAll ps).lookup k := by
  induction ps generalizing t t' with
  | nil => exact h
  | cons p ps ih =>
    apply ih
    by_cases hp : k = p.1
    · subst hp
      cases hlookup : t.lookup p.1 with
      | none => rw [lookup_emplace_self hlookup, lookup_emplace_self (h.symm.trans hlookup)]
      | some v =>
        rw [lookup_emplace_of_some hlookup, lookup_emplace_of_some (h.symm.trans hlookup)]
    · rw [lookup_emplace_of_ne hp, lookup_emplace_of_ne hp, h]

lemma lookup_emplaceAll_of_firstUnder (h : FirstUnder ps k v) :
    (emplaceAll ∅ ps).lookup k = some v := by
  obtain ⟨before, rest, rfl, hbefore⟩ := h
  rw [emplaceAll_append, emplaceAll_cons]
  apply lookup_emplaceAll_of_some
  apply lookup_emplace_self
  rw [lookup_emplaceAll_of_forall_ne hbefore]
  exact Finmap.lookup_empty k

/-- Under every key the table holds the value that came first. -/
theorem lookup_emplaceAll_eq_some_iff :
    (emplaceAll ∅ ps).lookup k = some v ↔ FirstUnder ps k v := by
  refine ⟨fun h => ?_, lookup_emplaceAll_of_firstUnder⟩
  rcases firstUnder_or ps k with hnone | ⟨w, hw⟩
  · rw [lookup_emplaceAll_of_forall_ne hnone] at h
    cases h
  · rw [lookup_emplaceAll_of_firstUnder hw] at h
    cases h
    exact hw

theorem lookup_emplaceAll_eq_none_iff :
    (emplaceAll ∅ ps).lookup k = none ↔ ∀ p ∈ ps, p.1 ≠ k := by
  refine ⟨fun h => ?_, fun h => (lookup_emplaceAll_of_forall_ne h).trans (Finmap.lookup_empty k)⟩
  rcases firstUnder_or ps k with hnone | ⟨w, hw⟩
  · exact hnone
  · rw [lookup_emplaceAll_of_firstUnder hw] at h
    cases h

/-- Entries under different keys may be exchanged. -/
lemma emplace_comm (h : k ≠ l) : (t.emplace k v).emplace l w = (t.emplace l w).emplace k v := by
  have hmem : ∀ {k l : K} {w : V}, k ≠ l → (k ∈ t.emplace l w ↔ k ∈ t) := by
    intro k l w hkl
    rw [← Finmap.lookup_isSome, lookup_emplace_of_ne hkl, Finmap.lookup_isSome]
  by_cases hk : k ∈ t
  · rw [emplace_of_mem hk, emplace_of_mem ((hmem h).mpr hk)]
  · by_cases hl : l ∈ t
    · rw [emplace_of_mem hl, emplace_of_mem ((hmem h.symm).mpr hl)]
    · rw [emplace_of_notMem ((hmem h.symm).not.mpr hl), emplace_of_notMem ((hmem h).not.mpr hk),
        emplace_of_notMem hk, emplace_of_notMem hl, Finmap.insert_insert_of_ne _ h]

end Table

end Core
