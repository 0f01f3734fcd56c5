import Mathlib.Tactic.Common

/-!
# The last writer of a field

Calls write some of the fields of a record and leave the others alone. After a sequence of calls
every field has the value the last call that writes it has given it, so calls that write no field
in common may be exchanged.
-/

namespace Core

variable {Field C S : Type} {Value : Field → Type}

/-- The value the last call that writes `f` gives it, if there is one. -/
def lastWrite (writes : C → (f : Field) → Option (Value f)) (f : Field) :
    List C → Option (Value f)
  | [] => none
  | c :: cs => (lastWrite writes f cs).or (writes c f)

variable {writes : C → (f : Field) → Option (Value f)} {f : Field} {c d : C} {cs ds : List C}
  {v : Value f}

lemma lastWrite_append :
    lastWrite writes f (cs ++ ds) = (lastWrite writes f ds).or (lastWrite writes f cs) := by
  induction cs with
  | nil => simp [lastWrite]
  | cons c cs ih => rw [List.cons_append, lastWrite, lastWrite, ih, Option.or_assoc]

lemma lastWrite_map {D : Type} (g : D → C) (ds : List D) :
    lastWrite writes f (ds.map g) = lastWrite (fun d => writes (g d)) f ds := by
  induction ds with
  | nil => rfl
  | cons d ds ih => rw [List.map_cons, lastWrite, lastWrite, ih]

lemma lastWrite_eq_none_iff : lastWrite writes f cs = none ↔ ∀ c ∈ cs, writes c f = none := by
  induction cs with
  | nil => simp [lastWrite]
  | cons c cs ih => rw [lastWrite, Option.or_eq_none_iff, ih, List.forall_mem_cons, and_comm]

/-- The last write stands where no later call writes the field. -/
lemma lastWrite_eq_some_iff : lastWrite writes f cs = some v ↔
    ∃ front c back, cs = front ++ c :: back ∧ writes c f = some v ∧
      ∀ d ∈ back, writes d f = none := by
  constructor
  · intro h
    induction cs with
    | nil => cases h
    | cons c cs ih =>
      rw [lastWrite, Option.or_eq_some_iff] at h
      rcases h with h | ⟨hnone, hc⟩
      · obtain ⟨front, d, back, rfl, hd, hback⟩ := ih h
        exact ⟨c :: front, d, back, rfl, hd, hback⟩
      · exact ⟨[], c, cs, rfl, hc, lastWrite_eq_none_iff.mp hnone⟩
  · rintro ⟨front, c, back, rfl, hc, hback⟩
    rw [lastWrite_append, lastWrite, lastWrite_eq_none_iff.mpr hback, hc]
    rfl

/-- Two calls that do not write the same field may be exchanged. -/
lemma lastWrite_swap (h : writes c f = none ∨ writes d f = none) :
    lastWrite writes f (ds ++ c :: d :: cs) = lastWrite writes f (ds ++ d :: c :: cs) := by
  simp only [lastWrite_append, lastWrite]
  rcases h with h | h
  · simp [h]
  · simp [h]

/-- If every call writes its fields and no others, each field has the value of its last write. -/
theorem foldl_lastWrite (get : S → (f : Field) → Value f) {call : S → C → S}
    (hcall : ∀ s c f, get (call s c) f = (writes c f).getD (get s f)) (s : S) (f : Field) :
    get (cs.foldl call s) f = (lastWrite writes f cs).getD (get s f) := by
  induction cs generalizing s with
  | nil => rfl
  | cons c cs ih =>
    rw [List.foldl_cons, ih, hcall, lastWrite]
    cases lastWrite writes f cs <;> rfl

end Core
