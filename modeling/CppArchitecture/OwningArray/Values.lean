import CppArchitecture.OwningArray.Basic

/-!
# Programs on named arrays

A program declares arrays under names, copies, moves, swaps, writes and destroys them. It is run
twice: on the owning arrays of the code, and on plain values, where a copy is the value itself
and nothing is shared, allocated or deleted.
-/

namespace OwningArray

open Core

/-- A statement on named arrays. `fresh` is what a block allocated by it happens to hold. -/
inductive Op (Name T : Type) where
  /-- `auto x = make_array<T>(size);` -/
  | makeArray (x : Name) (size : ℕ) (fresh : ℕ → T)
  /-- `auto x = other;` -/
  | copyConstruct (x other : Name) (fresh : ℕ → T)
  /-- `auto x = std::move(other);` -/
  | moveConstruct (x other : Name)
  /-- `x = other;` -/
  | copyAssign (x other : Name) (fresh : ℕ → T)
  /-- `x = std::move(other);` -/
  | moveAssign (x other : Name)
  /-- `swap(left, right);` -/
  | swap (left right : Name)
  /-- `x[index] = value;` -/
  | write (x : Name) (index : ℕ) (value : T)
  /-- The end of the lifetime of `x`. -/
  | destroy (x : Name)

variable {Name T : Type} [DecidableEq Name]

/-! ### The owning arrays -/

/-- The array named `x`. -/
def object (x : Name) : EStateM Fault (Memory Name T) Array := do
  match (← get).arrays x with
  | some this => return this
  | none => throw .noArray

/-- The name `x` is free for a new array. -/
def undeclared (x : Name) : EStateM Fault (Memory Name T) PUnit := do
  match (← get).arrays x with
  | some _ => throw .alreadyDeclared
  | none => return ⟨⟩

/-- Put the data members of the array named `x`, or end its lifetime. -/
def setObject (x : Name) (this : Option Array) : EStateM Fault (Memory Name T) PUnit :=
  modify fun m => { m with arrays := Function.update m.arrays x this }

def perform (A : Allocator T) (policy : DebugPrintingPolicy) :
    Op Name T → EStateM Fault (Memory Name T) PUnit
  | .makeArray x size fresh => do
    undeclared x
    let this ← makeArray A policy size fresh
    setObject x this
  | .copyConstruct x other fresh => do
    undeclared x
    let this ← (← object other).copyConstruct A policy fresh
    setObject x this
  | .moveConstruct x other => do
    undeclared x
    let (this, left) ← (← object other).moveConstruct policy
    setObject other left
    setObject x this
  | .copyAssign x other fresh => do
    -- the parameter is constructed before the call, from what `other` holds then
    let param ← (← object other).copyConstruct A policy fresh
    let this ← (← object x).assign policy param
    setObject x this
  | .moveAssign x other => do
    let (param, left) ← (← object other).moveConstruct policy
    setObject other left
    let this ← (← object x).assign policy param
    setObject x this
  | .swap left right => do
    let (l, r) ← (← object left).swap policy (← object right)
    setObject left l
    setObject right r
  | .write x index value => do
    (← object x).write index value
  | .destroy x => do
    (← object x).destroy policy
    setObject x none

/-- The programs that run without a fault. -/
def machine (A : Allocator T) (policy : DebugPrintingPolicy) :
    Machine (Memory Name T) (Op Name T) :=
  Machine.ofMethod (perform A policy)

/-! ### Values -/

/-- The value of every declared name. -/
abbrev Values (Name T : Type) := Name → Option (List T)

/-- A move takes the value and leaves the empty one. -/
def Values.perform (v : Values Name T) : Op Name T → Option (Values Name T)
  | .makeArray x size fresh =>
    match v x with
    | none => some (Function.update v x (some ((List.range size).map fresh)))
    | some _ => none
  | .copyConstruct x other _ =>
    match v x, v other with
    | none, some ys => some (Function.update v x (some ys))
    | _, _ => none
  | .moveConstruct x other =>
    match v x, v other with
    | none, some ys => some (Function.update (Function.update v other (some [])) x (some ys))
    | _, _ => none
  | .copyAssign x other _ =>
    match v x, v other with
    | some _, some ys => some (Function.update v x (some ys))
    | _, _ => none
  | .moveAssign x other =>
    match v x, v other with
    | some _, some ys => some (Function.update (Function.update v other (some [])) x (some ys))
    | _, _ => none
  | .swap left right =>
    match v left, v right with
    | some xs, some ys => some (Function.update (Function.update v left (some ys)) right (some xs))
    | _, _ => none
  | .write x index value =>
    match v x with
    | some xs =>
      if index < xs.length then some (Function.update v x (some (xs.set index value))) else none
    | none => none
  | .destroy x =>
    match v x with
    | some _ => some (Function.update v x none)
    | none => none

section

variable {v v' : Values Name T} {x y : Name} {n i : ℕ} {fresh : ℕ → T} {value : T}

lemma perform_makeArray_iff : v.perform (.makeArray x n fresh) = some v' ↔
    v x = none ∧ v' = Function.update v x (some ((List.range n).map fresh)) := by
  simp only [Values.perform]
  cases v x <;> simp [eq_comm]

lemma perform_copyConstruct_iff : v.perform (.copyConstruct x y fresh) = some v' ↔
    v x = none ∧ ∃ ys, v y = some ys ∧ v' = Function.update v x (some ys) := by
  simp only [Values.perform]
  cases v x <;> cases v y <;> simp [eq_comm]

lemma perform_moveConstruct_iff : v.perform (.moveConstruct x y) = some v' ↔
    v x = none ∧ ∃ ys, v y = some ys ∧
      v' = Function.update (Function.update v y (some [])) x (some ys) := by
  simp only [Values.perform]
  cases v x <;> cases v y <;> simp [eq_comm]

lemma perform_copyAssign_iff : v.perform (.copyAssign x y fresh) = some v' ↔
    ∃ xs ys, v x = some xs ∧ v y = some ys ∧ v' = Function.update v x (some ys) := by
  simp only [Values.perform]
  cases v x <;> cases v y <;> simp [eq_comm]

lemma perform_moveAssign_iff : v.perform (.moveAssign x y) = some v' ↔
    ∃ xs ys, v x = some xs ∧ v y = some ys ∧
      v' = Function.update (Function.update v y (some [])) x (some ys) := by
  simp only [Values.perform]
  cases v x <;> cases v y <;> simp [eq_comm]

lemma perform_swap_iff : v.perform (.swap x y) = some v' ↔
    ∃ xs ys, v x = some xs ∧ v y = some ys ∧
      v' = Function.update (Function.update v x (some ys)) y (some xs) := by
  simp only [Values.perform]
  cases v x <;> cases v y <;> simp [eq_comm]

lemma perform_write_iff : v.perform (.write x i value) = some v' ↔
    ∃ xs, v x = some xs ∧ i < xs.length ∧
      v' = Function.update v x (some (xs.set i value)) := by
  simp only [Values.perform]
  cases v x <;> simp [eq_comm]

lemma perform_destroy_iff : v.perform (.destroy x) = some v' ↔
    ∃ xs, v x = some xs ∧ v' = Function.update v x none := by
  simp only [Values.perform]
  cases v x <;> simp [eq_comm]

end

def valueMachine : Machine (Values Name T) (Op Name T) := ⟨Values.perform⟩

end OwningArray
