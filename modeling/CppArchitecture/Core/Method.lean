import CppArchitecture.Core.Machine

/-!
# Member functions that may throw

A member function is an `EStateM` computation over the object it works on: a thrown exception
leaves the object as the statements before the throw have left it.
-/

namespace Core

universe u

variable {ε S T α : Type u}

/-- The state an object is left in, whether the call returned or threw. -/
def after (x : EStateM ε S α) (s : S) : S :=
  match x.run s with
  | .ok _ t => t
  | .error _ t => t

/-- The call exits with an exception. -/
def Throws (x : EStateM ε S α) (s : S) : Prop := ∃ e t, x.run s = .error e t

/-- The result of a call, be it a value or an exception, and the state it leaves. -/
def attempt (x : EStateM ε S α) (s : S) : Except ε α × S :=
  match x.run s with
  | .ok a t => (.ok a, t)
  | .error e t => (.error e, t)

/-- The calls, one after the other, go on after an exception. -/
def attempts {A : Type*} (call : A → EStateM ε S α) : S → List A → List (Except ε α) × S
  | s, [] => ([], s)
  | s, a :: as =>
    let r := attempt (call a) s
    let rest := attempts call r.2 as
    (r.1 :: rest.1, rest.2)

/-- Work on a part of the object, read by `view` and written back by `update`. -/
def zoom (view : S → T) (update : S → T → S) (x : EStateM ε T α) : EStateM ε S α := fun s =>
  match x.run (view s) with
  | .ok a t => .ok a (update s t)
  | .error e t => .error e (update s t)

/-- The calls that return, one after the other. -/
def Machine.ofMethod {A : Type*} (call : A → EStateM ε S PUnit) : Machine S A where
  step s a := match (call a).run s with
    | .ok _ t => some t
    | .error _ _ => none

variable {x : EStateM ε S α} {s t : S} {a : α} {e : ε}

lemma Machine.ofMethod_step {A : Type*} {call : A → EStateM ε S PUnit} {a : A} :
    (ofMethod call).step s a = some t ↔ ∃ u, (call a).run s = .ok u t := by
  simp only [ofMethod]
  cases (call a).run s <;> simp

lemma after_ok (h : x.run s = .ok a t) : after x s = t := by simp [after, h]

lemma after_error (h : x.run s = .error e t) : after x s = t := by simp [after, h]

lemma attempt_snd : (attempt x s).2 = after x s := by
  rw [attempt, after]
  cases x.run s <;> rfl

section

variable {A : Type*} {call call' : A → EStateM ε S α} {as : List A}

lemma attempts_cons {a : A} : attempts call s (a :: as) =
    ((attempt (call a) s).1 :: (attempts call (after (call a) s) as).1,
      (attempts call (after (call a) s) as).2) := by
  rw [attempts, attempt_snd]

/-- What every call has to find is there before all of them. -/
lemma good_of_attempts {Good : S → Prop} (hback : ∀ s a, Good (after (call a) s) → Good s)
    (h : Good (attempts call s as).2) : Good s := by
  induction as generalizing s with
  | nil => exact h
  | cons a as ih =>
    rw [attempts_cons] at h
    exact hback s a (ih h)

/-- Calls that agree in the states they lead to have the same results, as long as these states are
good: none of them is if the one before it is not. -/
theorem attempts_congr {I : S → Prop} (Good : S → Prop)
    (hback : ∀ s a, Good (after (call a) s) → Good s)
    (hkeep : ∀ s a, I s → Good (after (call a) s) → I (after (call a) s))
    (hagree : ∀ s a, I s → Good (after (call a) s) → (call a).run s = (call' a).run s)
    (hs : I s) (hgood : Good (attempts call s as).2) :
    attempts call s as = attempts call' s as := by
  induction as generalizing s with
  | nil => rfl
  | cons a as ih =>
    rw [attempts_cons] at hgood
    have hnext : Good (after (call a) s) := good_of_attempts hback hgood
    have hrun := hagree s a hs hnext
    have hafter : after (call a) s = after (call' a) s := by rw [after, after, hrun]
    rw [attempts_cons, attempts_cons, ← hafter, ih (hkeep s a hs hnext) hgood, attempt, attempt,
      hrun]

end

lemma throws_of_error (h : x.run s = .error e t) : Throws x s := ⟨e, t, h⟩

lemma not_throws_of_ok (h : x.run s = .ok a t) : ¬ Throws x s := by
  rintro ⟨e, u, hu⟩
  rw [h] at hu
  cases hu

variable {β : Type u} {f : α → EStateM ε S β} {b : β}

@[simp] lemma run_throw : (throw e : EStateM ε S α).run s = .error e s := rfl

lemma run_modifyGet_eq_ok {f : S → α × S} :
    (modifyGet f : EStateM ε S α).run s = .ok a t ↔ f s = (a, t) := by
  rw [EStateM.run_modifyGet, EStateM.Result.ok.injEq, Prod.ext_iff]

/-- A sequence returns if both of its parts do. -/
lemma run_bind_eq_ok :
    (x >>= f).run s = .ok b t ↔ ∃ a r, x.run s = .ok a r ∧ (f a).run r = .ok b t := by
  rw [EStateM.run_bind]
  cases h : x.run s with
  | ok a r => simp
  | error e r => simp

/-- A sequence whose first part returns goes on with the second. -/
lemma run_bind_of_ok (h : x.run s = .ok a t) : (x >>= f).run s = (f a).run t := by
  rw [EStateM.run_bind, h]

/-- A sequence whose first part throws does not go on. -/
lemma run_bind_of_error (h : x.run s = .error e t) : (x >>= f).run s = .error e t := by
  rw [EStateM.run_bind, h]

/-- The exceptions of a sequence are those of its parts. -/
lemma adaptExcept_bind {ε' : Type u} (g : ε → ε') :
    (x >>= f).adaptExcept g = x.adaptExcept g >>= fun a => (f a).adaptExcept g := by
  funext s
  change (x >>= f).adaptExcept g s = EStateM.bind (x.adaptExcept g) _ s
  simp only [EStateM.adaptExcept, EStateM.bind, bind]
  cases x s <;> rfl

variable {view : S → T} {update : S → T → S} {y : EStateM ε T α} {p : T}

lemma run_zoom : (zoom view update y).run s =
    match y.run (view s) with
    | .ok a p => .ok a (update s p)
    | .error e p => .error e (update s p) := rfl

lemma run_zoom_ok (h : y.run (view s) = .ok a p) :
    (zoom view update y).run s = .ok a (update s p) := by
  rw [run_zoom, h]

lemma run_zoom_error (h : y.run (view s) = .error e p) :
    (zoom view update y).run s = .error e (update s p) := by
  rw [run_zoom, h]

lemma run_zoom_eq_ok : (zoom view update y).run s = .ok a t ↔
    ∃ p, y.run (view s) = .ok a p ∧ update s p = t := by
  rw [run_zoom]
  cases y.run (view s) <;> simp

end Core
