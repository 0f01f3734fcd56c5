import CppArchitecture.Core.Walk
import CppArchitecture.Stock.StateMachine
import Mathlib.Algebra.Order.Group.Int

/-!
# The state after a history of events

Until the item is discontinued the machine is a walk held at zero: a delivery adds to the
stock, a purchase takes from it, and a purchase the stock does not cover leaves nothing.
Rejected events do not move the walk, since it stands at zero when they arrive.
-/

namespace Stock

open Core

/-- The change of stock an event asks for. -/
def Event.change : Event → ℤ
  | .deliveryArrived count => count
  | .purchased count => -count
  | .discontinued => 0

/-- The counts of deliveries and purchases are positive. -/
def Event.Positive : Event → Prop
  | .deliveryArrived count => 0 < count
  | .purchased count => 0 < count
  | .discontinued => True

/-- The level after a history: the sum of all changes less its least partial sum. -/
def stockLevel (es : List Event) : ℤ :=
  partialSum (es.map Event.change) es.length - leastPartialSum (es.map Event.change)

/-- The state of an item of which `level` units are in stock. -/
def stateOfLevel (level : ℤ) : State := if 0 < level then .available level else .depleted

lemma stockLevel_eq_clampedWalk (es : List Event) :
    stockLevel es = clampedWalk (es.map Event.change) := by
  rw [clampedWalk_eq, stockLevel, ← partialSum_length, List.length_map]

lemma stateOfLevel_of_pos {level : ℤ} (h : 0 < level) :
    stateOfLevel level = .available level := if_pos h

lemma stateOfLevel_of_nonpos {level : ℤ} (h : level ≤ 0) : stateOfLevel level = .depleted :=
  if_neg (not_lt.mpr h)

namespace ItemStateMachine

@[simp] lemma feed_nil (I : IntType) (m : ItemStateMachine) : feed I m [] = m := rfl

lemma feed_snoc (I : IntType) (m : ItemStateMachine) (es : List Event) (e : Event) :
    feed I m (es ++ [e]) = after (processEvent I e) (feed I m es) := by
  simp [feed]

lemma after_of_unsupported {m : ItemStateMachine} {e : Event} (h : Unsupported m.state_ e) :
    after (processEvent .unbounded e) m = m :=
  after_error (processEvent_of_unsupported h)

lemma after_of_supported {m : ItemStateMachine} {e : Event} (h : ¬ Unsupported m.state_ e) :
    after (processEvent .unbounded e) m = ⟨nextState m.state_ e⟩ :=
  after_ok (processEvent_of_supported h)

/-- One event other than `Discontinued` is one step of the clamped walk. -/
lemma after_stateOfLevel {level : ℤ} (hlevel : 0 ≤ level) {e : Event} (hpos : e.Positive)
    (he : e ≠ .discontinued) :
    after (processEvent .unbounded e) ⟨stateOfLevel level⟩ =
      ⟨stateOfLevel (max 0 (level + e.change))⟩ := by
  rcases hlevel.eq_or_lt with rfl | h
  · rw [stateOfLevel_of_nonpos le_rfl, zero_add]
    match e with
    | .deliveryArrived count =>
      have hcount : 0 < count := hpos
      rw [after_of_supported (by simp [Unsupported])]
      simp only [nextState, Event.change]
      rw [max_eq_right hcount.le, stateOfLevel_of_pos hcount]
    | .purchased count =>
      have hcount : 0 < count := hpos
      rw [after_of_unsupported (by simp [Unsupported])]
      simp only [Event.change]
      rw [max_eq_left (by omega), stateOfLevel_of_nonpos le_rfl]
    | .discontinued => exact absurd rfl he
  · rw [stateOfLevel_of_pos h]
    match e with
    | .deliveryArrived count =>
      have hcount : 0 < count := hpos
      rw [after_of_supported (by simp [Unsupported])]
      simp only [nextState, Event.change]
      rw [max_eq_right (by omega), stateOfLevel_of_pos (by omega)]
    | .purchased count =>
      rw [after_of_supported (by simp [Unsupported])]
      simp only [nextState, Event.change, ← sub_eq_add_neg]
      split_ifs with hleft
      · rw [max_eq_right (by omega), stateOfLevel_of_pos hleft]
      · rw [max_eq_left (by omega), stateOfLevel_of_nonpos le_rfl]
    | .discontinued => exact absurd rfl he

/-- Without a `Discontinued` event the machine follows the clamped walk. -/
lemma feed_eq_stateOfLevel {es : List Event} (hpos : ∀ e ∈ es, e.Positive)
    (hes : .discontinued ∉ es) :
    feed .unbounded {} es = ⟨stateOfLevel (clampedWalk (es.map Event.change))⟩ := by
  induction es using List.reverseRecOn with
  | nil => rfl
  | append_singleton es e ih =>
    simp only [List.mem_append, List.mem_singleton, not_or] at hes
    have ih := ih (fun e' he' => hpos e' (List.mem_append_left _ he')) hes.1
    have he : e.Positive := hpos e (by simp)
    rw [feed_snoc, ih, after_stateOfLevel (clampedWalk_nonneg _) he (Ne.symm hes.2),
      List.map_append, List.map_singleton, clampedWalk_snoc]

lemma after_discontinued (e : Event) :
    after (processEvent .unbounded e) ⟨.discontinued⟩ = ⟨.discontinued⟩ := by
  match e with
  | .deliveryArrived _ | .purchased _ => exact after_of_unsupported (by simp [Unsupported])
  | .discontinued => exact after_of_supported (by simp [Unsupported])

/-- Discontinued items stay discontinued. -/
lemma feed_discontinued (es : List Event) :
    feed .unbounded ⟨.discontinued⟩ es = ⟨.discontinued⟩ := by
  induction es using List.reverseRecOn with
  | nil => rfl
  | append_singleton es e ih => rw [feed_snoc, ih, after_discontinued]

lemma after_event_discontinued (m : ItemStateMachine) :
    after (processEvent .unbounded .discontinued) m = ⟨.discontinued⟩ := by
  have h : ¬ Unsupported m.state_ .discontinued := by cases m.state_ <;> simp [Unsupported]
  rw [after_of_supported h]
  cases m.state_ <;> rfl

lemma feed_of_discontinued_mem {es : List Event} (h : .discontinued ∈ es)
    (m : ItemStateMachine) : feed .unbounded m es = ⟨.discontinued⟩ := by
  obtain ⟨front, back, rfl⟩ := List.append_of_mem h
  simp only [feed, List.foldl_append, List.foldl_cons, after_event_discontinued]
  exact feed_discontinued back

/-- The state after any history of events, and when a call throws. -/
theorem feed_closed_form (es : List Event) (hpos : ∀ e ∈ es, e.Positive) :
    (.discontinued ∈ es → (feed .unbounded {} es).state_ = .discontinued) ∧
    (.discontinued ∉ es →
      (stockLevel es = 0 ∧ (feed .unbounded {} es).state_ = .depleted) ∨
      (0 < stockLevel es ∧ (feed .unbounded {} es).state_ = .available (stockLevel es))) ∧
    ∀ m e, (Throws (processEvent .unbounded e) m ↔ Unsupported m.state_ e) ∧
      (Throws (processEvent .unbounded e) m →
        (processEvent .unbounded e).run m =
          .error (.logicError "Unsupported state transition") m) := by
  refine ⟨fun h => ?_, fun h => ?_, fun m e => ⟨throws_iff_unsupported, fun h => ?_⟩⟩
  · rw [feed_of_discontinued_mem h]
  · rw [feed_eq_stateOfLevel hpos h, ← stockLevel_eq_clampedWalk]
    have hnonneg : 0 ≤ stockLevel es := by
      rw [stockLevel_eq_clampedWalk]
      exact clampedWalk_nonneg _
    rcases hnonneg.eq_or_lt with hzero | hlt
    · exact .inl ⟨hzero.symm, stateOfLevel_of_nonpos hzero.ge⟩
    · exact .inr ⟨hlt, stateOfLevel_of_pos hlt⟩
  · exact processEvent_of_unsupported (throws_iff_unsupported.mp h)

/-- The events of the program's `main`. -/
theorem feed_closed_form_main :
    (feed .unbounded {} [.deliveryArrived 3, .purchased 2, .deliveryArrived 2, .purchased 3,
      .discontinued]).state_ = .discontinued :=
  (feed_closed_form _ (by simp [Event.Positive])).1 (by simp)

end ItemStateMachine

end Stock
