import CppArchitecture.Stock.History

/-!
# Counts of 32 bits

`process_event` checks no count: a delivery to a depleted item makes it available in whatever
count was delivered, and the counts are added and subtracted as they come. An item stays
available in a positive count of an `int` exactly as long as every delivery and every purchase
leaves one.
-/

namespace Stock

open Core

/-- The count an event carries is an `int`. -/
def Event.Fits : Event → Prop
  | .deliveryArrived count => -2 ^ 31 ≤ count ∧ count < 2 ^ 31
  | .purchased count => -2 ^ 31 ≤ count ∧ count < 2 ^ 31
  | .discontinued => True

/-- A condition on the state and the count of an event. A depleted item takes only a positive
delivery, an available one no delivery that cancels what is there or goes past the largest
`int`, and no purchase so negative that it goes past it. -/
def CountStaysPositive : State → Event → Prop
  | .depleted, .deliveryArrived delivered => 0 < delivered
  | .available count, .deliveryArrived delivered =>
    -count < delivered ∧ delivered ≤ 2 ^ 31 - 1 - count
  | .available count, .purchased purchased => count - (2 ^ 31 - 1) ≤ purchased
  | _, _ => True

instance : DecidableRel CountStaysPositive
  | .depleted, .deliveryArrived delivered => inferInstanceAs (Decidable (0 < delivered))
  | .available count, .deliveryArrived delivered =>
    inferInstanceAs (Decidable (-count < delivered ∧ delivered ≤ 2 ^ 31 - 1 - count))
  | .available count, .purchased purchased =>
    inferInstanceAs (Decidable (count - (2 ^ 31 - 1) ≤ purchased))
  | .depleted, .purchased _ => isTrue trivial
  | .discontinued, .deliveryArrived _ => isTrue trivial
  | .discontinued, .purchased _ => isTrue trivial
  | .depleted, .discontinued => isTrue trivial
  | .available _, .discontinued => isTrue trivial
  | .discontinued, .discontinued => isTrue trivial

namespace ItemStateMachine

/-- The event makes an addition or a subtraction of `on_event` overflow. -/
def Overflows (m : ItemStateMachine) (e : Event) : Prop :=
  ∃ m', (processEvent .int32 e).run m = .error .overflow m'

/-- An available item is there in a positive count, and so it is reported. -/
def CountPositive (m : ItemStateMachine) : Prop :=
  (∀ count, m.state_ = .available count → 0 < count) ∧
  ∀ count : ℤ, count ≤ 0 → m.reportCurrentState ≠ toString count ++ " items available"

/-- The machine fed with events, those it rejects skipped. -/
def skipping : Machine ItemStateMachine Event :=
  Machine.total fun m e => after (processEvent .int32 e) m

/-- No event of the run overflows, and at every point of it the count is positive. -/
def CountsSound (es : List Event) : Prop :=
  skipping.Meets (fun m e => ¬ m.Overflows e) {} es ∧
  skipping.Always (fun _ m => m.CountPositive) {} es

variable {m : ItemStateMachine} {e : Event}

/-- The texts of two integers are different if only one of them is positive. -/
lemma toString_ne_of_pos {z count : ℤ} (hz : z ≤ 0) (hcount : 0 < count) :
    toString z ≠ toString count := by
  intro heq
  have hdigits : (toString count).toList = Nat.toDigits 10 count.toNat := by
    simp [Int.toString_eq_repr, Int.repr_eq_if, hcount.le]
  rcases hz.lt_or_eq with hz | rfl
  · -- a minus sign is not a digit
    have hminus : '-' ∈ (toString z).toList := by
      simp [Int.toString_eq_repr, Int.repr_eq_if, not_le.mpr hz]
    rw [heq, hdigits] at hminus
    exact absurd (Nat.isDigit_of_mem_toDigits (by decide) le_rfl hminus) (by decide)
  · have hzero : (toString (0 : ℤ)).toList = Nat.toDigits 10 0 := rfl
    have hvalue := Nat.ofDigitChars_ten_toDigits (n := count.toNat)
    rw [← hdigits, ← heq, hzero, Nat.ofDigitChars_ten_toDigits] at hvalue
    omega

lemma countPositive_iff :
    m.CountPositive ↔ ∀ count, m.state_ = .available count → 0 < count := by
  refine ⟨fun h => h.1, fun h => ⟨h, ?_⟩⟩
  intro z hz hreport
  match hm : m.state_ with
  | .available count =>
    simp only [reportCurrentState, hm, String.append_left_inj] at hreport
    exact toString_ne_of_pos hz (h count hm) hreport.symm
  | .depleted =>
    -- the texts end differently
    simp only [reportCurrentState, hm] at hreport
    have hlast := congrArg (fun s => s.toList.getLast?) hreport
    simp [String.toList_append] at hlast
  | .discontinued =>
    simp only [reportCurrentState, hm] at hreport
    have hlast := congrArg (fun s => s.toList.getLast?) hreport
    simp [String.toList_append] at hlast

/-! ### One event -/

/-- An available item is there in a positive `int` count. -/
def CountFits (m : ItemStateMachine) : Prop :=
  ∀ count, m.state_ = .available count → 0 < count ∧ count < 2 ^ 31

lemma CountFits.countPositive (h : m.CountFits) : m.CountPositive :=
  countPositive_iff.mpr fun count hm => (h count hm).1

lemma check_of_fits {z : ℤ} (hz : -2 ^ 31 ≤ z ∧ z < 2 ^ 31) :
    IntType.int32.check z = .ok z := by
  simp only [IntType.check, IntType.int32, decide_eq_true hz, if_true]

lemma check_of_not_fits {z : ℤ} (hz : ¬ (-2 ^ 31 ≤ z ∧ z < 2 ^ 31)) :
    IntType.int32.check z = .error .overflow := by
  simp only [IntType.check, IntType.int32, decide_eq_false hz]
  rfl

/-- An addition or a subtraction without a value fails, and `process_event` with it. -/
lemma overflows_of_onEvent (h : onEvent .int32 m.state_ e = some (.error .overflow)) :
    m.Overflows e :=
  ⟨m, by simp [processEvent, h]⟩

lemma onEvent_delivery_overflow {count delivered : ℤ}
    (h : ¬ (-2 ^ 31 ≤ count + delivered ∧ count + delivered < 2 ^ 31)) :
    onEvent .int32 (.available count) (.deliveryArrived delivered) = some (.error .overflow) := by
  simp only [onEvent, check_of_not_fits h]
  rfl

lemma onEvent_purchase_overflow {count purchased : ℤ}
    (h : ¬ (-2 ^ 31 ≤ count - purchased ∧ count - purchased < 2 ^ 31)) :
    onEvent .int32 (.available count) (.purchased purchased) = some (.error .overflow) := by
  simp only [onEvent, check_of_not_fits h]
  rfl

/-- An event that meets the condition is processed as if the counts had no bound. -/
lemma onEvent_of_staysPositive (hm : m.CountFits) (he : e.Fits)
    (hpos : CountStaysPositive m.state_ e) :
    onEvent .int32 m.state_ e = onEvent .unbounded m.state_ e := by
  obtain ⟨state⟩ := m
  match state, e with
  | .available count, .deliveryArrived delivered =>
    have hcount := hm count rfl
    have hpos : -count < delivered ∧ delivered ≤ 2 ^ 31 - 1 - count := hpos
    have hsum : -2 ^ 31 ≤ count + delivered ∧ count + delivered < 2 ^ 31 := by omega
    simp only [onEvent, check_of_fits hsum, IntType.check_unbounded]
  | .available count, .purchased purchased =>
    have hcount := hm count rfl
    have he : -2 ^ 31 ≤ purchased ∧ purchased < 2 ^ 31 := he
    have hpos : count - (2 ^ 31 - 1) ≤ purchased := hpos
    have hdiff : -2 ^ 31 ≤ count - purchased ∧ count - purchased < 2 ^ 31 := by omega
    simp only [onEvent, check_of_fits hdiff, IntType.check_unbounded]
  | .depleted, .deliveryArrived _ | .depleted, .purchased _ | .depleted, .discontinued => rfl
  | .discontinued, .deliveryArrived _ | .discontinued, .purchased _ => rfl
  | .available _, .discontinued | .discontinued, .discontinued => rfl

/-- The next count is a positive `int` again. -/
lemma nextState_countFits (hm : m.CountFits) (he : e.Fits)
    (hpos : CountStaysPositive m.state_ e) : CountFits ⟨nextState m.state_ e⟩ := by
  obtain ⟨state⟩ := m
  rintro next hnext
  match state, e with
  | .available count, .deliveryArrived delivered =>
    have hpos : -count < delivered ∧ delivered ≤ 2 ^ 31 - 1 - count := hpos
    cases hnext
    omega
  | .available count, .purchased purchased =>
    have hpos : count - (2 ^ 31 - 1) ≤ purchased := hpos
    simp only [nextState] at hnext
    split_ifs at hnext with hleft
    cases hnext
    omega
  | .depleted, .deliveryArrived delivered =>
    have hpos : 0 < delivered := hpos
    have he : -2 ^ 31 ≤ delivered ∧ delivered < 2 ^ 31 := he
    cases hnext
    omega
  | .available _, .discontinued | .depleted, .discontinued | .depleted, .purchased _ => cases hnext
  | .discontinued, .deliveryArrived _ | .discontinued, .purchased _ => cases hnext
  | .discontinued, .discontinued => cases hnext

/-- What an event that meets the condition does, be it rejected or not. -/
lemma after_of_staysPositive (hm : m.CountFits) (he : e.Fits)
    (hpos : CountStaysPositive m.state_ e) :
    ¬ m.Overflows e ∧ CountFits (after (processEvent .int32 e) m) := by
  by_cases hs : Unsupported m.state_ e
  · have hrun := processEvent_of_unsupported (I := .int32) hs
    refine ⟨?_, ?_⟩
    · rintro ⟨m', hover⟩
      rw [hrun] at hover
      cases hover
    · rwa [after_error hrun]
  · have hrun : (processEvent .int32 e).run m = .ok () ⟨nextState m.state_ e⟩ := by
      simp [processEvent, onEvent_of_staysPositive hm he hpos, onEvent_of_supported hs]
    refine ⟨?_, ?_⟩
    · rintro ⟨m', hover⟩
      rw [hrun] at hover
      cases hover
    · rw [after_ok hrun]
      exact nextState_countFits hm he hpos

/-- An event that neither overflows nor leaves an available item without a positive count
meets the condition. -/
lemma staysPositive_of_after (hm : m.CountFits) (hover : ¬ m.Overflows e)
    (hafter : (after (processEvent .int32 e) m).CountPositive) :
    CountStaysPositive m.state_ e := by
  have hpositive := countPositive_iff.mp hafter
  obtain ⟨state⟩ := m
  match state, e with
  | .available count, .deliveryArrived delivered =>
    have hcount := hm count rfl
    by_cases hsum : -2 ^ 31 ≤ count + delivered ∧ count + delivered < 2 ^ 31
    · have hrun : (processEvent .int32 (.deliveryArrived delivered)).run ⟨.available count⟩ =
          .ok () ⟨.available (count + delivered)⟩ := by
        simp [processEvent, onEvent, check_of_fits hsum]
      have hleft := hpositive (count + delivered) (by rw [after_ok hrun])
      change -count < delivered ∧ delivered ≤ 2 ^ 31 - 1 - count
      omega
    · exact absurd (overflows_of_onEvent (onEvent_delivery_overflow hsum)) hover
  | .available count, .purchased purchased =>
    have hcount := hm count rfl
    by_cases hdiff : -2 ^ 31 ≤ count - purchased ∧ count - purchased < 2 ^ 31
    · change count - (2 ^ 31 - 1) ≤ purchased
      omega
    · exact absurd (overflows_of_onEvent (onEvent_purchase_overflow hdiff)) hover
  | .depleted, .deliveryArrived delivered =>
    have hrun : (processEvent .int32 (.deliveryArrived delivered)).run ⟨.depleted⟩ =
        .ok () ⟨.available delivered⟩ := rfl
    exact hpositive delivered (by rw [after_ok hrun])
  | .available _, .discontinued | .depleted, .discontinued | .discontinued, _ => trivial
  | .depleted, .purchased _ => trivial

/-! ### Whole runs -/

/-- No run overflows and every count is positive exactly if every event meets the condition on
the state it finds. -/
theorem countsSound_iff {es : List Event} (hes : ∀ e ∈ es, e.Fits) :
    CountsSound es ↔ skipping.Meets (fun m e => CountStaysPositive m.state_ e) {} es := by
  have hinit : CountFits {} := fun count hcount => by cases hcount
  have hmem : ∀ bs (e : Event), bs ++ [e] <+: es → e.Fits := fun bs e hpre =>
    hes e (hpre.subset (by simp))
  constructor
  · rintro ⟨hover, hpositive⟩
    -- as long as the counts are positive, they are also `int` counts
    have hsound : skipping.Meets (fun m e => ¬ m.Overflows e ∧
        (after (processEvent .int32 e) m).CountPositive) {} es := by
      intro bs e m hpre hm
      refine ⟨hover bs e m hpre hm, hpositive _ _ hpre ?_⟩
      exact Machine.run_snoc_eq_some.mpr ⟨m, hm, rfl⟩
    have hfits : skipping.Always (fun _ m => m.CountFits) {} es := by
      refine hsound.always hinit ?_
      rintro bs m e _ hpre hm ⟨rfl⟩ ⟨hover, hafter⟩
      exact (after_of_staysPositive hm (hmem bs e hpre) (staysPositive_of_after hm hover hafter)).2
    intro bs e m hpre hm
    obtain ⟨hover, hafter⟩ := hsound bs e m hpre hm
    have hbs := (List.prefix_append bs [e]).trans hpre
    exact staysPositive_of_after (hfits bs m hbs hm) hover hafter
  · intro hgood
    have hfits : skipping.Always (fun _ m => m.CountFits) {} es := by
      refine hgood.always hinit ?_
      rintro bs m e _ hpre hm ⟨rfl⟩ hpos
      exact (after_of_staysPositive hm (hmem bs e hpre) hpos).2
    refine ⟨?_, ?_⟩
    · intro bs e m hpre hm
      have hbs := (List.prefix_append bs [e]).trans hpre
      exact (after_of_staysPositive (hfits bs m hbs hm) (hmem bs e hpre)
        (hgood bs e m hpre hm)).1
    · intro bs m hpre hm
      exact (hfits bs m hpre hm).countPositive

/-- The events of `main` leave one item, then none. -/
theorem countsSound_iff_main : CountsSound [.deliveryArrived 3, .purchased 2,
    .deliveryArrived 2, .purchased 3, .discontinued] := by
  refine (countsSound_iff (by simp [Event.Fits])).mpr ?_
  simp only [Machine.meets_cons, skipping, Machine.total_step, Option.some.injEq,
    forall_eq', Machine.meets_nil, and_true]
  decide

/-- An empty delivery makes a depleted item available, with no items. -/
theorem zero_items_available :
    ¬ ∀ es : List Event, (∀ e ∈ es, e.Fits) → CountsSound es := by
  intro hall
  have hsound := hall [.deliveryArrived 0] (by simp [Event.Fits])
  have hpositive := hsound.2 _ _ List.prefix_rfl rfl
  exact absurd (hpositive.1 0 rfl) (lt_irrefl 0)

end ItemStateMachine

end Stock
