import CppArchitecture.Stock.History

/-!
# Overselling

A ledger of the units in the deliveries and purchases that were accepted. The machine accepts
a purchase of more units than it has available and takes the item as depleted, so the units
sold can exceed those delivered. They do not exactly as long as every purchase that meets an
available item is covered by it.
-/

namespace Stock

open Core

/-- The machine together with the units it accepted so far. -/
structure Ledger where
  machine : ItemStateMachine := {}
  delivered : ℤ := 0
  purchased : ℤ := 0
  deriving DecidableEq, Repr

namespace Ledger

open ItemStateMachine

/-- Enter the units of an event that has been accepted. -/
def enter (l : Ledger) : Event → Ledger
  | .deliveryArrived count => { l with delivered := l.delivered + count }
  | .purchased count => { l with purchased := l.purchased + count }
  | .discontinued => l

/-- Process an event; the units count if `process_event` returns without throwing. -/
def record (I : IntType) (l : Ledger) (e : Event) : Ledger :=
  match (processEvent I e).run l.machine with
  | .ok _ m => { l.enter e with machine := m }
  | .error _ m => { l with machine := m }

/-- A purchase is covered by what is available. -/
def Covered (l : Ledger) : Event → Prop
  | .purchased count => ∀ n, l.machine.state_ = .available n → count ≤ n
  | _ => True

/-- No more units were purchased than delivered. -/
def NotOversold (l : Ledger) : Prop := l.purchased ≤ l.delivered

instance (l : Ledger) : Decidable l.NotOversold :=
  inferInstanceAs (Decidable (l.purchased ≤ l.delivered))

/-- The units delivered and not purchased are in stock, unless the item was discontinued. -/
def Balanced (l : Ledger) : Prop :=
  match l.machine.state_ with
  | .depleted => l.delivered = l.purchased
  | .available n => l.delivered = l.purchased + n
  | .discontinued => True

variable {l : Ledger} {e : Event}

lemma record_of_unsupported (h : Unsupported l.machine.state_ e) :
    l.record .unbounded e = l := by
  simp [record, processEvent_of_unsupported h]

lemma record_of_supported (h : ¬ Unsupported l.machine.state_ e) :
    l.record .unbounded e = { l.enter e with machine := ⟨nextState l.machine.state_ e⟩ } := by
  simp [record, processEvent_of_supported h]

/-- A covered event keeps the books balanced. -/
lemma balanced_record (hb : l.Balanced) (hc : l.Covered e) :
    (l.record .unbounded e).Balanced := by
  by_cases h : Unsupported l.machine.state_ e
  · rwa [record_of_unsupported h]
  rw [record_of_supported h]
  obtain ⟨⟨s⟩, delivered, purchased⟩ := l
  match s, e with
  | .available n, .deliveryArrived d =>
    simp only [Balanced, nextState, enter] at hb ⊢
    omega
  | .available n, .purchased p =>
    have hp : p ≤ n := hc n rfl
    simp only [Balanced, nextState, enter] at hb ⊢
    split_ifs with hleft
    · simp only; omega
    · simp only; omega
  | .depleted, .deliveryArrived d =>
    simp only [Balanced, nextState, enter] at hb ⊢
    omega
  | .available _, .discontinued | .depleted, .discontinued | .discontinued, .discontinued =>
    simp [Balanced, nextState]
  | .depleted, .purchased _ | .discontinued, .purchased _ | .discontinued, .deliveryArrived _ =>
    exact absurd trivial h

/-- From balanced books, exactly the covered events do not oversell. -/
lemma notOversold_record_iff (hpos : e.Positive) (hb : l.Balanced) (hn : l.NotOversold) :
    (l.record .unbounded e).NotOversold ↔ l.Covered e := by
  by_cases h : Unsupported l.machine.state_ e
  · rw [record_of_unsupported h]
    refine iff_of_true hn ?_
    obtain ⟨⟨s⟩, delivered, purchased⟩ := l
    cases s <;> cases e <;> simp_all [Unsupported, Covered]
  rw [record_of_supported h]
  obtain ⟨⟨s⟩, delivered, purchased⟩ := l
  match s, e with
  | .available n, .purchased p =>
    simp only [Balanced, NotOversold, Covered, enter] at hb hn ⊢
    constructor
    · rintro hle m ⟨rfl⟩
      omega
    · intro hc
      have := hc n rfl
      omega
  | .available _, .deliveryArrived d | .depleted, .deliveryArrived d =>
    have hd : 0 < d := hpos
    simp only [NotOversold, Covered, enter, iff_true] at hn ⊢
    omega
  | _, .discontinued => exact iff_of_true hn trivial
  | .depleted, .purchased _ | .discontinued, .purchased _ | .discontinued, .deliveryArrived _ =>
    exact absurd trivial h

/-- A purchase of more than is available is accepted, and the item is taken as depleted. -/
lemma processEvent_uncovered {n p : ℤ} (h : n < p) :
    (processEvent .unbounded (.purchased p)).run ⟨.available n⟩ = .ok () ⟨.depleted⟩ := by
  rw [processEvent_of_supported (by simp [Unsupported])]
  simp only [nextState]
  rw [if_neg (by omega)]

/-- The machine oversells in a run exactly when some purchase of the run is not covered; and a
purchase of more than is available is never rejected. -/
theorem notOversold_iff_covered (es : List Event) (hpos : ∀ e ∈ es, e.Positive) :
    ((Machine.total (record .unbounded)).Always (fun _ l => l.NotOversold) {} es ↔
      (Machine.total (record .unbounded)).Meets Covered {} es) ∧
    ∀ n p : ℤ, ((n < p → Throws (processEvent .unbounded (.purchased p)) ⟨.available n⟩ ∧
        after (processEvent .unbounded (.purchased p)) ⟨.available n⟩ = ⟨.available n⟩) ↔
      p ≤ n) := by
  refine ⟨?_, fun n p => ⟨fun h => ?_, fun hle hlt => absurd hlt (not_lt.mpr hle)⟩⟩
  · refine Machine.always_iff_meets (Q := fun _ l => l.Balanced) le_rfl rfl ?_ ?_
      (Machine.total_run _)
    · rintro bs l e _ hpre hb hn ⟨rfl⟩
      exact notOversold_record_iff (hpos e (hpre.subset (by simp))) hb hn
    · rintro bs l e _ _ hb _ ⟨rfl⟩ hc
      exact balanced_record hb hc
  · by_contra hlt
    exact not_throws_of_ok (processEvent_uncovered (not_le.mp hlt)) (h (not_le.mp hlt)).1

/-- One unit delivered and one purchased: the run is covered. -/
theorem notOversold_iff_covered_sellOut :
    (Machine.total (record .unbounded)).Always (fun _ l => l.NotOversold) {}
        [.deliveryArrived 1, .purchased 1] ↔
      (Machine.total (record .unbounded)).Meets Covered {} [.deliveryArrived 1, .purchased 1] :=
  (notOversold_iff_covered _ (by simp [Event.Positive])).1

/-- One unit delivered, two purchased: both events are accepted. -/
theorem oversold_by_one :
    ¬ ∀ es : List Event, (∀ e ∈ es, e.Positive) →
      (Machine.total (record .unbounded)).Always (fun _ l => l.NotOversold) {} es := by
  intro h
  have hl := h [.deliveryArrived 1, .purchased 2] (by simp [Event.Positive]) _ _
    List.prefix_rfl (Machine.total_run _)
  exact absurd hl (by decide)

end Ledger

end Stock
