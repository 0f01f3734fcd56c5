import CppArchitecture.Core.Table
import Mathlib.Data.List.Perm.Basic
import Mathlib.Data.Set.List

/-!
# Tables in which the last entry wins

An assignment replaces the entry of its key. A table whose entries are assigned one after the other
to an empty table is found again there, in whatever order that is done.
-/

namespace Core

/-- A list whose elements but for one come of a function, in another order. -/
lemma exists_of_perm_cons_map {A B : Type*} {f : A → B} (hf : f.Injective) {bs : List B} {b : B}
    {as : List A} (hperm : bs.Perm (b :: as.map f)) :
    ∃ before after : List A, bs = before.map f ++ b :: after.map f ∧ (before ++ after).Perm as := by
  obtain ⟨cs, ds, rfl⟩ := List.append_of_mem (hperm.mem_iff.mpr List.mem_cons_self)
  have has := (List.perm_middle.symm.trans hperm).cons_inv
  have hrange : ∀ {l : List B}, (∀ c ∈ l, c ∈ cs ++ ds) → l ∈ Set.range (List.map f) := by
    intro l hl
    rw [Set.range_list_map]
    intro c hc
    obtain ⟨a, -, ha⟩ := List.mem_map.mp (has.mem_iff.mp (hl c hc))
    exact ⟨a, ha⟩
  obtain ⟨before, rfl⟩ := hrange (l := cs) fun c => List.mem_append_left ds
  obtain ⟨after, rfl⟩ := hrange (l := ds) fun c => List.mem_append_right _
  rw [← List.map_append] at has
  exact ⟨before, after, rfl, (List.map_perm_map_iff hf).mp has⟩

variable {K V : Type} [DecidableEq K]

/-- The entries of a table, in some order. -/
structure Enumerates (ps : List (K × V)) (t : Table K V) : Prop where
  nodup : (ps.map Prod.fst).Nodup
  mem_iff : ∀ k v, (k, v) ∈ ps ↔ t.lookup k = some v

namespace Table

/-- `for (auto&& pair : ps) { t[pair.first] = pair.second; }` -/
def assignAll (t : Table K V) (ps : List (K × V)) : Table K V :=
  ps.foldl (fun t p => t.insert p.1 p.2) t

variable {t : Table K V} {k : K} {v : V} {ps qs : List (K × V)}

lemma assignAll_cons {p : K × V} : t.assignAll (p :: ps) = assignAll (t.insert p.1 p.2) ps := rfl

lemma assignAll_append : t.assignAll (ps ++ qs) = assignAll (t.assignAll ps) qs := List.foldl_append

lemma lookup_assignAll_of_forall_ne (h : ∀ p ∈ ps, p.1 ≠ k) :
    (t.assignAll ps).lookup k = t.lookup k := by
  induction ps generalizing t with
  | nil => rfl
  | cons p ps ih =>
    obtain ⟨hp, hps⟩ := List.forall_mem_cons.mp h
    rw [assignAll_cons, ih hps, Finmap.lookup_insert_of_ne _ hp.symm]

/-- What has been assigned to a key that occurs once is found there. -/
lemma lookup_assignAll_of_mem (hnodup : (ps.map Prod.fst).Nodup) (h : (k, v) ∈ ps) :
    (t.assignAll ps).lookup k = some v := by
  induction ps generalizing t with
  | nil => cases h
  | cons p ps ih =>
    rw [List.map_cons, List.nodup_cons] at hnodup
    rw [assignAll_cons]
    rcases List.mem_cons.mp h with rfl | h
    · rw [lookup_assignAll_of_forall_ne fun q hq heq =>
        hnodup.1 (List.mem_map.mpr ⟨q, hq, heq⟩), Finmap.lookup_insert]
    · exact ih hnodup.2 h

/-- A value that is found has been assigned. -/
lemma mem_of_lookup_assignAll (h : (t.assignAll ps).lookup k = some v) :
    t.lookup k = some v ∨ (k, v) ∈ ps := by
  induction ps generalizing t with
  | nil => exact .inl h
  | cons p ps ih =>
    rw [assignAll_cons] at h
    rcases ih h with h | h
    · by_cases hk : k = p.1
      · subst hk
        rw [Finmap.lookup_insert] at h
        obtain rfl := Option.some.inj h
        exact .inr List.mem_cons_self
      · rw [Finmap.lookup_insert_of_ne _ hk] at h
        exact .inl h
    · exact .inr (List.mem_cons_of_mem p h)

lemma mem_of_lookup_assignAll_empty (h : (assignAll ∅ ps).lookup k = some v) : (k, v) ∈ ps := by
  refine (mem_of_lookup_assignAll h).resolve_left fun hempty => ?_
  rw [Finmap.lookup_empty] at hempty
  cases hempty

end Table

namespace Enumerates

variable {t : Table K V} {ps qs : List (K × V)}

lemma perm (h : Enumerates ps t) (hperm : qs.Perm ps) : Enumerates qs t :=
  ⟨(hperm.map Prod.fst).nodup_iff.mpr h.nodup, fun k v => hperm.mem_iff.trans (h.mem_iff k v)⟩

lemma singleton {k : K} {v : V} : Enumerates [(k, v)] (Finmap.singleton k v) := by
  refine ⟨List.nodup_singleton k, fun l w => ?_⟩
  by_cases hl : l = k
  · subst hl
    simp [Finmap.lookup_singleton_eq, eq_comm]
  · have hnone : (Finmap.singleton k v : Table K V).lookup l = none :=
      Finmap.lookup_eq_none.mpr fun hmem => hl (Finmap.mem_singleton l k v |>.mp hmem)
    simp [hnone, hl]

/-- A table is found again where its entries are assigned. -/
theorem assignAll_eq (h : Enumerates ps t) : Table.assignAll ∅ ps = t := by
  refine Finmap.ext_lookup fun k => Option.ext fun v => ?_
  rw [← h.mem_iff]
  exact ⟨Table.mem_of_lookup_assignAll_empty, Table.lookup_assignAll_of_mem h.nodup⟩

/-- A table whose keys and values have been rewritten is the one it was exactly if all of them have
stayed what they were, provided that the keys are rewritten once and for all. -/
theorem assignAll_eq_iff {f : K → K} {g : V → V} (h : Enumerates ps t) (hf : ∀ k, f (f k) = f k)
    (hperm : qs.Perm (ps.map fun p => (f p.1, g p.2))) :
    Table.assignAll ∅ qs = t ↔ ∀ p ∈ ps, f p.1 = p.1 ∧ g p.2 = p.2 := by
  constructor
  · intro heq
    have hkey : ∀ p ∈ ps, f p.1 = p.1 := by
      intro p hp
      have hlookup := (h.mem_iff p.1 p.2).mp hp
      rw [← heq] at hlookup
      obtain ⟨q, -, hq⟩ := List.mem_map.mp
        (hperm.mem_iff.mp (Table.mem_of_lookup_assignAll_empty hlookup))
      rw [← (Prod.mk.inj hq).1, hf]
    have hnodup : (qs.map Prod.fst).Nodup := by
      rw [(hperm.map Prod.fst).nodup_iff, List.map_map]
      exact (List.map_congr_left hkey).symm ▸ h.nodup
    intro p hp
    refine ⟨hkey p hp, ?_⟩
    have hmem := hperm.mem_iff.mpr (List.mem_map_of_mem (f := fun p => (f p.1, g p.2)) hp)
    have hlookup := Table.lookup_assignAll_of_mem (t := ∅) hnodup hmem
    rw [heq, hkey p hp, (h.mem_iff p.1 p.2).mp hp] at hlookup
    exact (Option.some.inj hlookup).symm
  · intro hall
    have hsame : ps.map (fun p => (f p.1, g p.2)) = ps := by
      conv_rhs => rw [← List.map_id ps]
      exact List.map_congr_left fun p hp => Prod.ext (hall p hp).1 (hall p hp).2
    rw [hsame] at hperm
    exact (h.perm hperm).assignAll_eq

end Enumerates

end Core
