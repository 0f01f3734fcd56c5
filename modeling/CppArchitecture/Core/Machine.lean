import Mathlib.Data.List.Infix
import Mathlib.Tactic.Common

/-!
# Partial machines

A machine is a partial step function: an action that is not enabled has no successor. Runs
perform a list of actions, all of which have to be enabled. The rules below carry facts from
one step to whole runs: induction over the history of a run, invariants, forward simulation,
and the exact condition on the steps under which a property survives at every point of a run.
-/

namespace Core

variable {S T A : Type*}

/-- A deterministic machine; `step s a` is `none` when `a` is not enabled in `s`. -/
structure Machine (S A : Type*) where
  step : S → A → Option S

namespace Machine

/-- Perform the actions from left to right. -/
def run (M : Machine S A) : S → List A → Option S
  | s, [] => some s
  | s, a :: as => (M.step s a).bind fun t => run M t as

/-- The machine whose actions are always enabled. -/
def total (f : S → A → S) : Machine S A := ⟨fun s a => some (f s a)⟩

variable {M : Machine S A} {s t u : S} {a : A} {as bs : List A}

@[simp] lemma run_nil : M.run s [] = some s := rfl

@[simp] lemma run_cons : M.run s (a :: as) = (M.step s a).bind fun t => M.run t as := rfl

lemma run_append : M.run s (as ++ bs) = (M.run s as).bind fun t => M.run t bs := by
  induction as generalizing s with
  | nil => rfl
  | cons a as ih =>
    simp only [List.cons_append, run_cons, Option.bind_assoc]
    congr 1
    funext t
    exact ih

lemma run_append_eq_some :
    M.run s (as ++ bs) = some u ↔ ∃ t, M.run s as = some t ∧ M.run t bs = some u := by
  rw [run_append, Option.bind_eq_some_iff]

lemma run_snoc_eq_some :
    M.run s (as ++ [a]) = some u ↔ ∃ t, M.run s as = some t ∧ M.step t a = some u := by
  rw [run_append_eq_some]
  simp

/-- A prefix of a run is a run. -/
lemma exists_run_of_prefix (h : bs <+: as) (hrun : M.run s as = some u) :
    ∃ t, M.run s bs = some t := by
  obtain ⟨cs, rfl⟩ := h
  obtain ⟨t, ht, _⟩ := run_append_eq_some.mp hrun
  exact ⟨t, ht⟩

/-- If every action is enabled in every state, every list of actions is a run. -/
lemma exists_run (h : ∀ s a, ∃ t, M.step s a = some t) (s : S) (as : List A) :
    ∃ u, M.run s as = some u := by
  induction as generalizing s with
  | nil => exact ⟨s, rfl⟩
  | cons a as ih =>
    obtain ⟨t, ht⟩ := h s a
    obtain ⟨u, hu⟩ := ih t
    exact ⟨u, by rw [run_cons, ht, Option.bind_some, hu]⟩

@[simp] lemma total_step (f : S → A → S) : (total f).step s a = some (f s a) := rfl

@[simp] lemma total_run (f : S → A → S) : (total f).run s as = some (as.foldl f s) := by
  induction as generalizing s with
  | nil => rfl
  | cons a as ih => simp [ih]

/-! ### Induction over a run -/

/-- Induction over the history of a run: the property may speak of the actions performed. -/
theorem run_induction {P : List A → S → Prop} (nil : P [] s)
    (snoc : ∀ as t a u, M.run s as = some t → P as t → M.step t a = some u → P (as ++ [a]) u)
    (h : M.run s as = some t) : P as t := by
  induction as using List.reverseRecOn generalizing t with
  | nil =>
    obtain rfl : s = t := by simpa using h
    exact nil
  | append_singleton as a ih =>
    obtain ⟨r, hr, ha⟩ := run_snoc_eq_some.mp h
    exact snoc as r a t hr (ih hr) ha

/-- A predicate preserved by every step is preserved by every run. -/
theorem run_invariant {I : S → Prop} (hstep : ∀ s a t, I s → M.step s a = some t → I t)
    (hs : I s) (h : M.run s as = some t) : I t :=
  run_induction (P := fun _ t => I t) hs (fun _ r a u _ hr ha => hstep r a u hr ha) h

/-- A relation matched step by step is matched by whole runs. -/
theorem run_simulation {N : Machine T A} {R : S → T → Prop}
    (hstep : ∀ s t a t', R s t → N.step t a = some t' → ∃ s', M.step s a = some s' ∧ R s' t')
    {s : S} {t t' : T} (hR : R s t) (h : N.run t as = some t') :
    ∃ s', M.run s as = some s' ∧ R s' t' := by
  induction as generalizing s t with
  | nil =>
    obtain rfl : t = t' := by simpa using h
    exact ⟨s, rfl, hR⟩
  | cons a as ih =>
    obtain ⟨r, hr, hrun⟩ := Option.bind_eq_some_iff.mp h
    obtain ⟨s₁, hs₁, hR₁⟩ := hstep s t a r hR hr
    obtain ⟨s', hs', hR'⟩ := ih hR₁ hrun
    exact ⟨s', by simp [hs₁, hs'], hR'⟩

/-! ### The exact condition on the steps of a run -/

/-- `P` holds at every point of the run, of the actions so far and the state reached. -/
def Always (M : Machine S A) (P : List A → S → Prop) (s : S) (as : List A) : Prop :=
  ∀ bs t, bs <+: as → M.run s bs = some t → P bs t

/-- Every step of the run meets `Good`, a condition on the state before it and its action. -/
def Meets (M : Machine S A) (Good : S → A → Prop) (s : S) (as : List A) : Prop :=
  ∀ bs a t, bs ++ [a] <+: as → M.run s bs = some t → Good t a

@[simp] lemma meets_nil {Good : S → A → Prop} : M.Meets Good s [] := by
  intro bs a t hpre _
  simp at hpre

lemma meets_cons {Good : S → A → Prop} :
    M.Meets Good s (a :: as) ↔ Good s a ∧ ∀ t, M.step s a = some t → M.Meets Good t as := by
  constructor
  · intro h
    refine ⟨h [] a s (List.prefix_append [a] as) rfl, fun t ht bs b u hpre hu => ?_⟩
    refine h (a :: bs) b u (List.cons_prefix_cons.mpr ⟨rfl, hpre⟩) ?_
    rw [run_cons, ht]
    exact hu
  · rintro ⟨ha, has⟩ bs b u hpre hu
    match bs with
    | [] =>
      obtain ⟨rfl, _⟩ := List.cons_prefix_cons.mp hpre
      obtain rfl : s = u := by simpa using hu
      exact ha
    | c :: bs =>
      obtain ⟨rfl, htail⟩ := List.cons_prefix_cons.mp hpre
      obtain ⟨t, ht, hrun⟩ := Option.bind_eq_some_iff.mp hu
      exact has t ht bs b u htail hrun

/-- A condition on the actions alone is one on those of the list. -/
lemma meets_iff_forall_mem {Good : A → Prop} (hrun : M.run s as = some u) :
    M.Meets (fun _ a => Good a) s as ↔ ∀ a ∈ as, Good a := by
  constructor
  · intro h a ha
    obtain ⟨bs, cs, rfl⟩ := List.append_of_mem ha
    have hpre : bs ++ [a] <+: bs ++ a :: cs := ⟨cs, by simp⟩
    obtain ⟨t, ht⟩ := exists_run_of_prefix (List.prefix_append bs (a :: cs)) hrun
    exact h bs a t hpre ht
  · intro h bs a t hpre _
    exact h a (hpre.subset (by simp))

/-- What the good steps keep holds at every point of a run of good steps. -/
theorem Meets.always {Q : List A → S → Prop} {Good : S → A → Prop} (h : M.Meets Good s as)
    (hQ : Q [] s)
    (hkeep : ∀ bs t a u, bs ++ [a] <+: as → Q bs t → M.step t a = some u → Good t a →
      Q (bs ++ [a]) u) : M.Always Q s as := by
  intro bs t hpre ht
  refine run_induction (P := fun bs t => bs <+: as → Q bs t) (fun _ => hQ) ?_ ht hpre
  intro bs r a v hr ih ha hpre
  exact hkeep bs r a v hpre (ih ((List.prefix_append bs [a]).trans hpre)) ha (h bs a r hpre hr)

/-- Conditions that agree as long as they are met are met by the same runs. -/
theorem meets_congr {Q : List A → S → Prop} {Good Good' : S → A → Prop} (hQ : Q [] s)
    (hiff : ∀ bs t a, Q bs t → (Good t a ↔ Good' t a))
    (hkeep : ∀ bs t a u, Q bs t → M.step t a = some u → Good' t a → Q (bs ++ [a]) u) :
    M.Meets Good s as ↔ M.Meets Good' s as := by
  constructor
  · intro h bs a t hpre ht
    have hq := h.always hQ fun bs t a u _ hq ha hgood =>
      hkeep bs t a u hq ha ((hiff bs t a hq).mp hgood)
    have hbs := (List.prefix_append bs [a]).trans hpre
    exact (hiff bs t a (hq bs t hbs ht)).mp (h bs a t hpre ht)
  · intro h bs a t hpre ht
    have hq := h.always hQ fun bs t a u _ hq ha hgood => hkeep bs t a u hq ha hgood
    have hbs := (List.prefix_append bs [a]).trans hpre
    exact (hiff bs t a (hq bs t hbs ht)).mpr (h bs a t hpre ht)

/-- If a step keeps `P` exactly when it meets `Good`, then a run keeps `P` at every point
exactly when all its steps meet `Good`. `Q` is what is known of the run while `P` holds. -/
theorem always_iff_meets {P Q : List A → S → Prop} {Good : S → A → Prop}
    (hP : P [] s) (hQ : Q [] s)
    (hexact : ∀ bs t a u, bs ++ [a] <+: as → Q bs t → P bs t → M.step t a = some u →
      (P (bs ++ [a]) u ↔ Good t a))
    (hkeep : ∀ bs t a u, bs ++ [a] <+: as → Q bs t → P bs t → M.step t a = some u →
      Good t a → Q (bs ++ [a]) u)
    (hrun : M.run s as = some u) : M.Always P s as ↔ M.Meets Good s as := by
  constructor
  · intro h
    have hq : ∀ bs t, M.run s bs = some t → bs <+: as → Q bs t := by
      intro bs t ht
      refine run_induction (P := fun bs t => bs <+: as → Q bs t) (fun _ => hQ) ?_ ht
      intro bs r a v hr ih ha hpre
      have hbs := (List.prefix_append bs [a]).trans hpre
      have hv := h _ v hpre (run_snoc_eq_some.mpr ⟨r, hr, ha⟩)
      exact hkeep bs r a v hpre (ih hbs) (h bs r hbs hr) ha
        ((hexact bs r a v hpre (ih hbs) (h bs r hbs hr) ha).mp hv)
    intro bs a t hpre ht
    have hbs := (List.prefix_append bs [a]).trans hpre
    obtain ⟨r, hr⟩ := exists_run_of_prefix hpre hrun
    obtain ⟨t', ht', ha⟩ := run_snoc_eq_some.mp hr
    obtain rfl : t = t' := Option.some.inj (ht.symm.trans ht')
    exact (hexact bs t a r hpre (hq bs t ht hbs) (h bs t hbs ht) ha).mp (h _ r hpre hr)
  · intro h
    have hqp : M.Always (fun bs t => Q bs t ∧ P bs t) s as :=
      h.always ⟨hQ, hP⟩ fun bs t a u hpre hqp ha hgood =>
        ⟨hkeep bs t a u hpre hqp.1 hqp.2 ha hgood,
          (hexact bs t a u hpre hqp.1 hqp.2 ha).mpr hgood⟩
    intro bs t hpre ht
    exact (hqp bs t hpre ht).2

end Machine

end Core
