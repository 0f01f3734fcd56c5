import CppArchitecture.Core.Vec
import Mathlib.Data.List.Flatten

/-!
# Lazy views

A view is a range that computes its elements as it is walked: `first` is where a walk starts,
`deref` the element an iterator stands at, `next` the step to the following one. Filters,
transformed and joined views only rearrange the walks of the views below them. The walks end,
and what they come across are the filtered, mapped and concatenated elements.
-/

namespace Core

universe u v w

/-- A range walked from `first` by `next`, with no element at its end. At most `remaining it`
elements are left from `it` on. -/
structure View (α : Type u) where
  Iter : Type w
  first : Iter
  deref : Iter → Option α
  next : Iter → Iter
  remaining : Iter → ℕ
  next_lt : ∀ it a, deref it = some a → remaining (next it) < remaining it

namespace View

/-- A vector is walked by its indices. -/
def ofList {α : Type u} (xs : List α) : View.{u, 0} α where
  Iter := ℕ
  first := 0
  deref i := xs[i]?
  next i := i + 1
  remaining i := xs.length - i
  next_lt _ _ h := Nat.sub_succ_lt_self _ _ (List.getElem?_eq_some_iff.mp h).1

variable {α : Type u} {β : Type v}

/-- The elements from `it` on. -/
def elementsFrom (v : View.{u, w} α) (it : v.Iter) : List α :=
  match _h : v.deref it with
  | none => []
  | some a => a :: v.elementsFrom (v.next it)
termination_by v.remaining it
decreasing_by exact v.next_lt it a ‹_›

def elements (v : View.{u, w} α) : List α := v.elementsFrom v.first

/-- `for (; it != end; ++it) acc = body(acc, *it);` -/
def forEachFrom (v : View.{u, w} α) (body : β → α → β) (acc : β) (it : v.Iter) : β :=
  match _h : v.deref it with
  | none => acc
  | some a => v.forEachFrom body (body acc a) (v.next it)
termination_by v.remaining it
decreasing_by exact v.next_lt it a ‹_›

/-- A loop over the whole view, from a fresh `begin()`. -/
def forEach (v : View.{u, w} α) (body : β → α → β) (acc : β) : β :=
  v.forEachFrom body acc v.first

/-- `distance(v)` -/
def distance (v : View.{u, w} α) : ℕ := v.forEach (fun n _ => n + 1) 0

/-- `copy(v, back_inserter(out))` -/
def copy (v : View.{u, w} α) (out : Vec α) : Vec α := v.forEach Vec.pushBack out

/-- How writing through an iterator fails. -/
inductive IteratorError where
  | pastTheEnd
  deriving DecidableEq, Repr

/-- `*it++ = a`, for an iterator at a position of a sequence. -/
def writeNext : Except IteratorError (List α × ℕ) → α → Except IteratorError (List α × ℕ)
  | .ok (target, position), a =>
    if position < target.length then .ok (target.set position a, position + 1)
    else .error .pastTheEnd
  | .error e, _ => .error e

/-- `copy(v, it)`, for an iterator at `position` of the sequence `target`. -/
def copyTo (v : View.{u, w} α) (target : List α) (position : ℕ) :
    Except IteratorError (List α) :=
  (v.forEach writeNext (.ok (target, position))).map Prod.fst

/-- `views::transform(f)`, which applies `f` whenever an iterator is dereferenced. -/
def transform (f : α → β) (v : View.{u, w} α) : View.{v, w} β where
  Iter := v.Iter
  first := v.first
  deref it := (v.deref it).map f
  next := v.next
  remaining := v.remaining
  next_lt it b h := by
    obtain ⟨a, ha, _⟩ := Option.map_eq_some_iff.mp h
    exact v.next_lt it a ha

/-- `find_if(it, end, p)` -/
def findFrom (v : View.{u, w} α) (p : α → Bool) (it : v.Iter) : v.Iter :=
  match _h : v.deref it with
  | none => it
  | some a => if p a then it else v.findFrom p (v.next it)
termination_by v.remaining it
decreasing_by exact v.next_lt it a ‹_›

variable {v : View.{u, w} α} {it : v.Iter} {a : α}

lemma elementsFrom_of_none (h : v.deref it = none) : v.elementsFrom it = [] := by
  rw [elementsFrom]
  split
  · rfl
  · simp_all

lemma elementsFrom_of_some (h : v.deref it = some a) :
    v.elementsFrom it = a :: v.elementsFrom (v.next it) := by
  rw [elementsFrom]
  split
  · simp_all
  · simp_all

/-- Induction along the walk from an iterator. -/
lemma walk_induction {P : v.Iter → Prop} (done : ∀ it, v.deref it = none → P it)
    (step : ∀ it a, v.deref it = some a → P (v.next it) → P it) (it : v.Iter) : P it := by
  induction hn : v.remaining it using Nat.strongRecOn generalizing it with
  | ind n ih =>
    cases h : v.deref it with
    | none => exact done it h
    | some a => exact step it a h (ih _ (hn ▸ v.next_lt it a h) _ rfl)

/-! ### Vectors and transformed views -/

lemma elementsFrom_ofList (xs : List α) (i : ℕ) : (ofList xs).elementsFrom i = xs.drop i := by
  induction i using walk_induction (v := ofList xs) with
  | done i h =>
    rw [elementsFrom_of_none h, List.drop_eq_nil_of_le (List.getElem?_eq_none_iff.mp h)]
  | step i a h ih =>
    obtain ⟨hi, ha⟩ := List.getElem?_eq_some_iff.mp h
    rw [elementsFrom_of_some h, ih, List.drop_eq_getElem_cons hi, ha]
    rfl

@[simp] lemma elements_ofList (xs : List α) : (ofList xs).elements = xs :=
  (elementsFrom_ofList xs 0).trans List.drop_zero

lemma elementsFrom_transform (f : α → β) (it : v.Iter) :
    (v.transform f).elementsFrom it = (v.elementsFrom it).map f := by
  induction it using walk_induction with
  | done it h =>
    have h' : (v.transform f).deref it = none := by simp [transform, h]
    rw [elementsFrom_of_none h, elementsFrom_of_none h', List.map_nil]
  | step it a h ih =>
    have h' : (v.transform f).deref it = some (f a) := by simp [transform, h]
    rw [elementsFrom_of_some h, elementsFrom_of_some h', List.map_cons, ← ih]
    rfl

@[simp] lemma elements_transform (f : α → β) : (v.transform f).elements = v.elements.map f :=
  elementsFrom_transform f v.first

/-! ### Filters -/

lemma findFrom_of_none {p : α → Bool} (h : v.deref it = none) : v.findFrom p it = it := by
  rw [findFrom]
  split
  · rfl
  · simp_all

lemma findFrom_of_pos {p : α → Bool} (h : v.deref it = some a) (hp : p a = true) :
    v.findFrom p it = it := by
  rw [findFrom]
  split
  · rfl
  · simp_all

lemma findFrom_of_neg {p : α → Bool} (h : v.deref it = some a) (hp : ¬ p a = true) :
    v.findFrom p it = v.findFrom p (v.next it) := by
  rw [findFrom]
  split
  · simp_all
  · simp_all

lemma remaining_findFrom_le (p : α → Bool) (it : v.Iter) :
    v.remaining (v.findFrom p it) ≤ v.remaining it := by
  induction it using walk_induction with
  | done it h => rw [findFrom_of_none h]
  | step it a h ih =>
    by_cases hp : p a = true
    · rw [findFrom_of_pos h hp]
    · rw [findFrom_of_neg h hp]
      exact ih.trans (v.next_lt it a h).le

/-- `views::filter(p)`, whose iterators only stop where `p` holds. -/
def filter (p : α → Bool) (v : View.{u, w} α) : View.{u, w} α where
  Iter := v.Iter
  first := v.findFrom p v.first
  deref := v.deref
  next it := v.findFrom p (v.next it)
  remaining := v.remaining
  next_lt it a h := (remaining_findFrom_le p (v.next it)).trans_lt (v.next_lt it a h)

lemma elementsFrom_filter (p : α → Bool) (it : v.Iter) :
    (v.filter p).elementsFrom (v.findFrom p it) = (v.elementsFrom it).filter p := by
  induction it using walk_induction with
  | done it h =>
    rw [findFrom_of_none h, elementsFrom_of_none h]
    exact elementsFrom_of_none (v := v.filter p) h
  | step it a h ih =>
    rw [elementsFrom_of_some h]
    by_cases hp : p a = true
    · rw [findFrom_of_pos h hp, List.filter_cons_of_pos hp, ← ih]
      exact elementsFrom_of_some (v := v.filter p) h
    · rw [findFrom_of_neg h hp, List.filter_cons_of_neg hp, ih]

@[simp] lemma elements_filter (p : α → Bool) :
    (v.filter p).elements = v.elements.filter p :=
  elementsFrom_filter p v.first

/-! ### Joined views -/

/-- Where a joined view stands: the iterator of the outer view, the inner view it has computed
there, and an iterator of that view. -/
structure JoinIter (vs : View.{max u (w + 1), v} (View.{u, w} α)) where
  outer : vs.Iter
  inner : Option (Σ v : View.{u, w} α, v.Iter)

section

variable {vs : View.{max u (w + 1), v} (View.{u, w} α)} {outer : vs.Iter}

/-- Go on with the outer view to the first inner view that has an element. -/
def satisfy (vs : View.{max u (w + 1), v} (View.{u, w} α)) (outer : vs.Iter) : JoinIter vs :=
  match _h : vs.deref outer with
  | none => ⟨outer, none⟩
  | some inner =>
    match inner.deref inner.first with
    | some _ => ⟨outer, some ⟨inner, inner.first⟩⟩
    | none => vs.satisfy (vs.next outer)
termination_by vs.remaining outer
decreasing_by exact vs.next_lt outer inner ‹_›

/-- The step within the inner view, and on to the next inner views if that has ended. -/
def JoinIter.next (it : JoinIter vs) : JoinIter vs :=
  match it.inner with
  | none => it
  | some ⟨inner, i⟩ =>
    match inner.deref (inner.next i) with
    | some _ => ⟨it.outer, some ⟨inner, inner.next i⟩⟩
    | none => vs.satisfy (vs.next it.outer)

def JoinIter.deref (it : JoinIter vs) : Option α := it.inner.bind fun i => i.1.deref i.2

/-- What is left of the inner views from `outer` on. -/
def pending (vs : View.{max u (w + 1), v} (View.{u, w} α)) (outer : vs.Iter) : ℕ :=
  (vs.elementsFrom outer).foldr (fun v n => v.remaining v.first + n) 0

def JoinIter.remaining (it : JoinIter vs) : ℕ :=
  match it.inner with
  | none => 0
  | some ⟨inner, i⟩ => inner.remaining i + vs.pending (vs.next it.outer)

lemma pending_of_some {inner : View.{u, w} α} (h : vs.deref outer = some inner) :
    vs.pending outer = inner.remaining inner.first + vs.pending (vs.next outer) := by
  rw [pending, pending, elementsFrom_of_some h, List.foldr_cons]

lemma satisfy_of_none (h : vs.deref outer = none) : vs.satisfy outer = ⟨outer, none⟩ := by
  rw [satisfy]
  split
  · rfl
  · simp_all

lemma satisfy_of_nonempty {inner : View.{u, w} α} (h : vs.deref outer = some inner)
    (hi : inner.deref inner.first = some a) :
    vs.satisfy outer = ⟨outer, some ⟨inner, inner.first⟩⟩ := by
  rw [satisfy]
  split
  · simp_all
  · obtain rfl := Option.some.inj (h.symm.trans ‹_›)
    rw [hi]

lemma satisfy_of_empty {inner : View.{u, w} α} (h : vs.deref outer = some inner)
    (hi : inner.deref inner.first = none) :
    vs.satisfy outer = vs.satisfy (vs.next outer) := by
  rw [satisfy]
  split
  · simp_all
  · obtain rfl := Option.some.inj (h.symm.trans ‹_›)
    rw [hi]

lemma remaining_satisfy_le (outer : vs.Iter) :
    (vs.satisfy outer).remaining ≤ vs.pending outer := by
  induction outer using walk_induction with
  | done outer h =>
    rw [satisfy_of_none h]
    exact Nat.zero_le _
  | step outer inner h ih =>
    rw [pending_of_some h]
    cases hi : inner.deref inner.first with
    | some a =>
      rw [satisfy_of_nonempty h hi]
      exact le_rfl
    | none =>
      rw [satisfy_of_empty h hi]
      exact ih.trans (Nat.le_add_left _ _)

lemma JoinIter.next_lt (it : JoinIter vs) (a : α) (h : it.deref = some a) :
    it.next.remaining < it.remaining := by
  obtain ⟨outer, _ | ⟨inner, i⟩⟩ := it
  · cases h
  · have hlt := inner.next_lt i a h
    simp only [next, remaining]
    cases hi : inner.deref (inner.next i) with
    | some b => exact Nat.add_lt_add_right hlt _
    | none =>
      calc (vs.satisfy (vs.next outer)).remaining
          ≤ vs.pending (vs.next outer) := remaining_satisfy_le _
        _ < inner.remaining i + vs.pending (vs.next outer) :=
          Nat.lt_add_of_pos_left (Nat.zero_lt_of_lt hlt)

/-- `views::join` -/
def join (vs : View.{max u (w + 1), v} (View.{u, w} α)) : View.{u, max u (w + 1) v} α where
  Iter := JoinIter vs
  first := vs.satisfy vs.first
  deref := JoinIter.deref
  next := JoinIter.next
  remaining := JoinIter.remaining
  next_lt := JoinIter.next_lt

/-- From within an inner view the walk goes to the end of it and on to the next ones. -/
lemma elementsFrom_join_inner (outer : vs.Iter) (inner : View.{u, w} α) (i : inner.Iter)
    (hnext : (join vs).elementsFrom (vs.satisfy (vs.next outer)) =
      (vs.elementsFrom (vs.next outer)).flatMap elements)
    (hi : (inner.deref i).isSome) :
    (join vs).elementsFrom ⟨outer, some ⟨inner, i⟩⟩ =
      inner.elementsFrom i ++ (vs.elementsFrom (vs.next outer)).flatMap elements := by
  induction i using walk_induction with
  | done i h =>
    rw [h] at hi
    cases hi
  | step i a h ih =>
    have hstep : (join vs).elementsFrom ⟨outer, some ⟨inner, i⟩⟩ = a :: _ :=
      elementsFrom_of_some (v := join vs) h
    rw [hstep, elementsFrom_of_some h, List.cons_append]
    congr 1
    cases hj : inner.deref (inner.next i) with
    | some b =>
      rw [← ih (by simp [hj])]
      simp only [join, JoinIter.next, hj]
    | none =>
      rw [elementsFrom_of_none hj, List.nil_append, ← hnext]
      simp only [join, JoinIter.next, hj]

lemma elementsFrom_join (outer : vs.Iter) :
    (join vs).elementsFrom (vs.satisfy outer) = (vs.elementsFrom outer).flatMap elements := by
  induction outer using walk_induction with
  | done outer h =>
    rw [satisfy_of_none h, elementsFrom_of_none h]
    exact elementsFrom_of_none (v := join vs) rfl
  | step outer inner h ih =>
    rw [elementsFrom_of_some h, List.flatMap_cons]
    cases hi : inner.deref inner.first with
    | some a =>
      rw [satisfy_of_nonempty h hi]
      exact elementsFrom_join_inner outer inner inner.first ih (by simp [hi])
    | none =>
      rw [satisfy_of_empty h hi, ih, elements, elementsFrom_of_none hi, List.nil_append]

@[simp] lemma elements_join : (join vs).elements = vs.elements.flatMap elements :=
  elementsFrom_join vs.first

end

/-! ### Loops -/

lemma forEachFrom_eq (body : β → α → β) (acc : β) (it : v.Iter) :
    v.forEachFrom body acc it = (v.elementsFrom it).foldl body acc := by
  induction it using walk_induction generalizing acc with
  | done it h =>
    rw [forEachFrom, elementsFrom_of_none h]
    split
    · rfl
    · simp_all
  | step it a h ih =>
    rw [forEachFrom, elementsFrom_of_some h]
    split
    · simp_all
    · simp_all

lemma forEach_eq (body : β → α → β) (acc : β) :
    v.forEach body acc = v.elements.foldl body acc :=
  forEachFrom_eq body acc v.first

@[simp] lemma elements_copy (out : Vec α) :
    (v.copy out).elements = out.elements ++ v.elements := by
  rw [copy, forEach_eq, Vec.elements_foldl_pushBack]

/-! ### Copies over a sequence -/

lemma foldl_writeNext_error (e : IteratorError) (as : List α) :
    as.foldl writeNext (.error e) = .error e := by
  induction as with
  | nil => rfl
  | cons a as ih => exact ih

/-- What fits overwrites the elements from the position on. -/
lemma foldl_writeNext_of_fits (as target : List α) (position : ℕ)
    (hfits : position + as.length ≤ target.length) :
    as.foldl writeNext (.ok (target, position)) =
      .ok (target.take position ++ as ++ target.drop (position + as.length),
        position + as.length) := by
  induction as generalizing target position with
  | nil => simp
  | cons a as ih =>
    simp only [List.length_cons] at hfits ⊢
    have hlt : position < target.length := by omega
    have hwrite : writeNext (.ok (target, position)) a =
        .ok (target.set position a, position + 1) := if_pos hlt
    rw [List.foldl_cons, hwrite, ih _ _ (by rw [List.length_set]; omega)]
    have htake : (target.set position a).take (position + 1) = target.take position ++ [a] := by
      rw [List.take_add_one, List.getElem?_set_self hlt, List.take_set_of_le le_rfl]
      rfl
    rw [htake, List.drop_set_of_lt (by omega), Nat.add_assoc, Nat.add_comm 1]
    simp

/-- What does not fit is written past the end. -/
lemma foldl_writeNext_of_not_fits (as target : List α) (position : ℕ)
    (hposition : position ≤ target.length) (hfits : ¬ position + as.length ≤ target.length) :
    as.foldl writeNext (.ok (target, position)) =
      .error .pastTheEnd := by
  induction as generalizing target position with
  | nil => exact absurd hposition hfits
  | cons a as ih =>
    rw [List.foldl_cons]
    by_cases hlt : position < target.length
    · have hwrite : writeNext (.ok (target, position)) a =
          .ok (target.set position a, position + 1) := if_pos hlt
      rw [hwrite]
      apply ih
      · rw [List.length_set]
        exact hlt
      · rw [List.length_set]
        rw [List.length_cons] at hfits
        omega
    · have hwrite : writeNext (.ok (target, position)) a = .error .pastTheEnd :=
        if_neg hlt
      rw [hwrite, foldl_writeNext_error]

lemma copyTo_of_fits (target : List α) (position : ℕ)
    (hfits : position + v.elements.length ≤ target.length) :
    v.copyTo target position = .ok (target.take position ++ v.elements ++
      target.drop (position + v.elements.length)) := by
  rw [copyTo, forEach_eq, foldl_writeNext_of_fits _ _ _ hfits]
  rfl

lemma copyTo_of_not_fits (target : List α) (position : ℕ) (hposition : position ≤ target.length)
    (hfits : ¬ position + v.elements.length ≤ target.length) :
    v.copyTo target position = .error .pastTheEnd := by
  rw [copyTo, forEach_eq, foldl_writeNext_of_not_fits _ _ _ hposition hfits]
  rfl

end View

end Core
