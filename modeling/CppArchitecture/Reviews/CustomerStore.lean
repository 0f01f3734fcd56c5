import CppArchitecture.Reviews.History

/-!
# The customer review store

`CustomerReviewStore` appends the reviews posted to it. Its postcondition `!reviews_.empty()` is
checked before the review is appended, so an empty store rejects every post and stays empty; a
store with a review in it keeps every valid review.
-/

namespace Reviews

open Core

variable {F : Type} [LT F] [OfNat F 0] [OfNat F 5]

/-- The review names a merchant and a customer. -/
def Review.Valid (r : Review F) : Prop := r.merchant ≠ 0 ∧ r.customer ≠ 0

instance (r : Review F) : Decidable r.Valid :=
  inferInstanceAs (Decidable (r.merchant ≠ 0 ∧ r.customer ≠ 0))

/-- `CustomerReviewStore`, empty when default-constructed. -/
structure CustomerReviewStore (F : Type) [LT F] [OfNat F 0] [OfNat F 5] where
  reviews_ : List (Review F) := []

namespace CustomerReviewStore

/-- A contract macro: an error where it stands, if its condition is false. -/
def contract (what : String) (cond : Prop) [Decidable cond] :
    EStateM Exception (CustomerReviewStore F) PUnit :=
  if cond then pure ⟨⟩ else throw (.contractViolation what)

def getReviewForMerchant (_merchant_id : MerchantId) :
    EStateM Exception (CustomerReviewStore F) (Option (Review F)) :=
  throw (.logicError "not implemented")

def postReview (review : Review F) : EStateM Exception (CustomerReviewStore F) PUnit := do
  contract "Expects(review.merchant)" (review.merchant ≠ 0)
  contract "Expects(review.customer)" (review.customer ≠ 0)
  -- the postcondition is checked before the review is appended
  let c ← get
  contract "Ensures(!reviews_.empty())" (c.reviews_ ≠ [])
  modify fun c => { c with reviews_ := c.reviews_ ++ [review] }

/-- The interface the store implements. -/
def store : ICustomerReviewStore F Exception (CustomerReviewStore F) where
  getReviewForMerchant := getReviewForMerchant
  postReview := postReview

/-- Post the reviews one by one, going on after a failed call. -/
def postAll (c : CustomerReviewStore F) (rs : List (Review F)) : CustomerReviewStore F :=
  rs.foldl (fun c r => after (store.postReview r) c) c

/-- A call with a valid review succeeds, one with an invalid review fails and changes nothing,
and a successful call leaves the store nonempty. -/
def CallKeeps (c : CustomerReviewStore F) (r : Review F) : Prop :=
  (r.Valid → ¬ Throws (store.postReview r) c) ∧
  (¬ r.Valid → Throws (store.postReview r) c ∧ after (store.postReview r) c = c) ∧
  (¬ Throws (store.postReview r) c → (after (store.postReview r) c).reviews_ ≠ [])

/-- All calls do as they should, and the contents are extended by the valid reviews. -/
def KeepsReviews (c : CustomerReviewStore F) (rs : List (Review F)) : Prop :=
  (Machine.total fun c r => after (store.postReview r) c).Meets CallKeeps c rs ∧
    (postAll c rs).reviews_ = c.reviews_ ++ rs.filter (·.Valid)

variable {c : CustomerReviewStore F} {r : Review F} {rs : List (Review F)}

lemma postReview_of_invalid (hr : ¬ r.Valid) :
    ∃ what, (store.postReview r).run c = .error (.contractViolation what) c := by
  by_cases hm : r.merchant = 0
  · refine ⟨"Expects(review.merchant)", ?_⟩
    simp [store, postReview, contract, hm]
  · have hc : r.customer = 0 := by
      by_contra hc
      exact hr ⟨hm, hc⟩
    refine ⟨"Expects(review.customer)", ?_⟩
    simp [store, postReview, contract, hm, hc]

lemma postReview_of_empty (hr : r.Valid) (hc : c.reviews_ = []) :
    (store.postReview r).run c = .error (.contractViolation "Ensures(!reviews_.empty())") c := by
  simp [store, postReview, contract, hr.1, hr.2, hc]

lemma postReview_of_nonempty (hr : r.Valid) (hc : c.reviews_ ≠ []) :
    (store.postReview r).run c = .ok ⟨⟩ ⟨c.reviews_ ++ [r]⟩ := by
  simp [store, postReview, contract, hr.1, hr.2, hc]

lemma after_of_invalid (hr : ¬ r.Valid) : after (store.postReview r) c = c := by
  obtain ⟨what, hrun⟩ := postReview_of_invalid (c := c) hr
  exact after_error hrun

/-- A store without reviews stays without, whatever is posted. -/
lemma postAll_of_empty (hc : c.reviews_ = []) : postAll c rs = c := by
  induction rs with
  | nil => rfl
  | cons r rs ih =>
    have hafter : after (store.postReview r) c = c := by
      by_cases hr : r.Valid
      · exact after_error (postReview_of_empty hr hc)
      · exact after_of_invalid hr
    rw [postAll, List.foldl_cons, hafter]
    exact ih

/-- A store with a review keeps the valid reviews. -/
lemma postAll_of_nonempty (hc : c.reviews_ ≠ []) :
    (postAll c rs).reviews_ = c.reviews_ ++ rs.filter (·.Valid) := by
  induction rs generalizing c with
  | nil => simp [postAll]
  | cons r rs ih =>
    rw [postAll, List.foldl_cons]
    by_cases hr : r.Valid
    · rw [after_ok (postReview_of_nonempty hr hc), List.filter_cons_of_pos (by simpa using hr)]
      refine (ih ?_).trans ?_
      · simp
      · simp
    · rw [after_of_invalid hr, List.filter_cons_of_neg (by simpa using hr)]
      exact ih hc

lemma callKeeps_of_invalid (hr : ¬ r.Valid) : CallKeeps c r := by
  obtain ⟨what, hrun⟩ := postReview_of_invalid (c := c) hr
  have hthrows := throws_of_error hrun
  exact ⟨fun h => absurd h hr, fun _ => ⟨hthrows, after_of_invalid hr⟩, fun h => absurd hthrows h⟩

lemma callKeeps_of_nonempty (hc : c.reviews_ ≠ []) : CallKeeps c r := by
  by_cases hr : r.Valid
  · have hrun := postReview_of_nonempty hr hc
    refine ⟨fun _ => not_throws_of_ok hrun, fun h => absurd hr h, fun _ => ?_⟩
    rw [after_ok hrun]
    simp
  · exact callKeeps_of_invalid hr

/-- A call never empties the store. -/
lemma after_ne_nil (hc : c.reviews_ ≠ []) : (after (store.postReview r) c).reviews_ ≠ [] := by
  by_cases hr : r.Valid
  · rw [after_ok (postReview_of_nonempty hr hc)]
    simp
  · rwa [after_of_invalid hr]

/-- Every valid review is kept exactly if the store is not empty, or none is posted. -/
theorem keepsReviews_iff (c : CustomerReviewStore F) (rs : List (Review F)) :
    KeepsReviews c rs ↔ c.reviews_ ≠ [] ∨ ∀ r ∈ rs, ¬ r.Valid := by
  constructor
  · rintro ⟨_, hcontents⟩
    by_contra! h
    obtain ⟨hc, r, hmem, hr⟩ := h
    rw [postAll_of_empty hc, hc, List.nil_append] at hcontents
    have hkept : r ∈ rs.filter (·.Valid) := List.mem_filter.mpr ⟨hmem, by simpa using hr⟩
    rw [← hcontents] at hkept
    cases hkept
  · rintro (hc | hrs)
    · refine ⟨?_, postAll_of_nonempty hc⟩
      intro bs r d _ hrun
      apply callKeeps_of_nonempty
      refine Machine.run_invariant (I := fun d => d.reviews_ ≠ []) ?_ hc hrun
      rintro d r _ hd ⟨rfl⟩
      exact after_ne_nil hd
    · refine ⟨fun bs r d hpre _ => callKeeps_of_invalid (hrs r (hpre.subset (by simp))), ?_⟩
      rw [List.filter_eq_nil_iff.mpr (by simpa using hrs), List.append_nil]
      congr 1
      induction rs with
      | nil => rfl
      | cons r rs ih =>
        rw [postAll, List.foldl_cons, after_of_invalid (hrs r List.mem_cons_self)]
        exact ih fun r' hr' => hrs r' (List.mem_cons_of_mem _ hr')

/-- The first valid review posted to a default-constructed store is lost. -/
theorem first_review_lost : ¬ ∀ (c : CustomerReviewStore ℕ) (rs : List (Review ℕ)),
    KeepsReviews c rs := by
  intro hall
  have hcontents := (hall {} [⟨1, 2, "3", ⟨4, by decide⟩⟩]).2
  exact absurd (congrArg List.length hcontents) (by decide)

end CustomerReviewStore

end Reviews
