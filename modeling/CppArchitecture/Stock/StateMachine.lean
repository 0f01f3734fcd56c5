import CppArchitecture.Core.Machine
import CppArchitecture.Core.Method
import Mathlib.Algebra.Group.Int.Defs

/-!
# The item state machine

The finite state machine of an item on sale: it is depleted, available in some count, or
discontinued. Events are dispatched to the overloads of `on_event`; a pair of a state and an
event without an overload is an unsupported transition.

The arithmetic on `int` counts is that of a signed integer type, given by the values it can
represent. An operation whose result is not among them is undefined.
-/

namespace Stock

open Core

/-- `state::Depleted`, `state::Available` and `state::Discontinued`. -/
inductive State where
  | depleted
  | available (count : ℤ)
  | discontinued
  deriving DecidableEq, Repr

/-- `event::DeliveryArrived`, `event::Purchased` and `event::Discontinued`. -/
inductive Event where
  | deliveryArrived (count : ℤ)
  | purchased (count : ℤ)
  | discontinued
  deriving DecidableEq, Repr

/-- How a call can fail: by an exception, or by undefined arithmetic. -/
inductive Fault where
  | logicError (what : String)
  | overflow
  deriving DecidableEq, Repr

/-- A signed integer type, by the values it can represent. -/
structure IntType where
  fits : ℤ → Bool

namespace IntType

/-- Counts without a bound. -/
def unbounded : IntType := ⟨fun _ => true⟩

/-- The `int` of 32 bits. -/
def int32 : IntType := ⟨fun z => decide (-2 ^ 31 ≤ z ∧ z < 2 ^ 31)⟩

/-- The result of an arithmetic operation, if it can be represented. -/
def check (I : IntType) (z : ℤ) : Except Fault ℤ :=
  if I.fits z then .ok z else .error .overflow

@[simp] lemma check_unbounded (z : ℤ) : unbounded.check z = .ok z := rfl

end IntType

/-- The overloads of `on_event`; `none` where overload resolution finds none. -/
def onEvent (I : IntType) : State → Event → Option (Except Fault State)
  | .available count, .deliveryArrived delivered => some do
    let count ← I.check (count + delivered)
    return .available count
  | .available count, .purchased purchased => some do
    let count ← I.check (count - purchased)
    if count > 0 then return .available count
    return .depleted
  -- the template, for every state
  | _, .discontinued => some (.ok .discontinued)
  | .depleted, .deliveryArrived delivered => some (.ok (.available delivered))
  | _, _ => none

/-- A default-constructed variant holds its first alternative. -/
structure ItemStateMachine where
  state_ : State := .depleted
  deriving DecidableEq, Repr

namespace ItemStateMachine

/-- The visitor prefers the constrained lambda, which is there if `on_event` can be called. -/
def processEvent (I : IntType) (event : Event) : EStateM Fault ItemStateMachine Unit := do
  let m ← get
  match onEvent I m.state_ event with
  | some (.ok state) => set { m with state_ := state }
  | some (.error fault) => throw fault
  | none => throw (.logicError "Unsupported state transition")

def reportCurrentState (m : ItemStateMachine) : String :=
  match m.state_ with
  | .available count => toString count ++ " items available"
  | .depleted => "Item is temporarily out of stock"
  | .discontinued => "Item has been discontinued"

/-- The machine fed with events one by one, exceptions caught. -/
def feed (I : IntType) (m : ItemStateMachine) (es : List Event) : ItemStateMachine :=
  es.foldl (fun m e => after (processEvent I e) m) m

end ItemStateMachine

/-! ### One event with unbounded counts -/

/-- The pairs without an overload. -/
def Unsupported : State → Event → Prop
  | .depleted, .purchased _ => True
  | .discontinued, .deliveryArrived _ => True
  | .discontinued, .purchased _ => True
  | _, _ => False

instance : DecidableRel Unsupported
  | .depleted, .purchased _ => isTrue trivial
  | .discontinued, .deliveryArrived _ => isTrue trivial
  | .discontinued, .purchased _ => isTrue trivial
  | .depleted, .deliveryArrived _ => isFalse id
  | .available _, _ => isFalse (by simp [Unsupported])
  | _, .discontinued => isFalse (by simp [Unsupported])

/-- The state after a supported event. -/
def nextState : State → Event → State
  | .available count, .deliveryArrived delivered => .available (count + delivered)
  | .available count, .purchased purchased =>
    if count - purchased > 0 then .available (count - purchased) else .depleted
  | .depleted, .deliveryArrived delivered => .available delivered
  | _, .discontinued => .discontinued
  | s, _ => s

lemma onEvent_eq_none_iff {I : IntType} {s : State} {e : Event} :
    onEvent I s e = none ↔ Unsupported s e := by
  cases s <;> cases e <;> simp [onEvent, Unsupported]

lemma onEvent_of_supported {s : State} {e : Event} (h : ¬ Unsupported s e) :
    onEvent .unbounded s e = some (.ok (nextState s e)) := by
  match s, e with
  | .available count, .deliveryArrived delivered => rfl
  | .available count, .purchased purchased =>
    change some (if count - purchased > 0 then _ else _) = _
    simp only [nextState]
    split_ifs <;> rfl
  | .available _, .discontinued | .depleted, .discontinued | .discontinued, .discontinued => rfl
  | .depleted, .deliveryArrived _ => rfl
  | .depleted, .purchased _ | .discontinued, .deliveryArrived _ | .discontinued, .purchased _ =>
    exact absurd trivial h

namespace ItemStateMachine

variable {m : ItemStateMachine} {e : Event}

lemma processEvent_of_unsupported {I : IntType} (h : Unsupported m.state_ e) :
    (processEvent I e).run m = .error (.logicError "Unsupported state transition") m := by
  simp [processEvent, onEvent_eq_none_iff.mpr h]

lemma processEvent_of_supported (h : ¬ Unsupported m.state_ e) :
    (processEvent .unbounded e).run m = .ok () ⟨nextState m.state_ e⟩ := by
  simp [processEvent, onEvent_of_supported h]

lemma throws_iff_unsupported :
    Throws (processEvent .unbounded e) m ↔ Unsupported m.state_ e := by
  constructor
  · intro hthrows
    by_contra h
    exact not_throws_of_ok (processEvent_of_supported h) hthrows
  · intro h
    exact throws_of_error (processEvent_of_unsupported h)

end ItemStateMachine

end Stock
