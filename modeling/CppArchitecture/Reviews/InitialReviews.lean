import CppArchitecture.Core.View
import CppArchitecture.Reviews.CustomerStore

/-!
# Stores made from existing reviews

The constructor of `CustomerReviewStore` that takes a range copies it to `begin(reviews_)`, but
`reviews_` has no elements yet. So the first review of the range is already written past the end,
and only a range without reviews can be taken over.
-/

namespace Reviews

open Core

variable {F : Type} [LT F] [OfNat F 0] [OfNat F 5]

namespace CustomerReviewStore

/-- The constructor from a range of initial reviews. -/
def ofRange (initial_reviews : View.{0, 0} (Review F)) :
    Except View.IteratorError (CustomerReviewStore F) := do
  -- a default-initialized vector, to which nothing is added before the copy
  let c : CustomerReviewStore F := {}
  let reviews ← initial_reviews.copyTo c.reviews_ 0
  return { c with reviews_ := reviews }

/-- The constructor writes only to elements of `reviews_`, the store holds the reviews of the
range, in their order, and the valid ones among the reviews posted to it are appended to them. -/
def KeepsInitialReviews (initial_reviews : View.{0, 0} (Review F)) (rs : List (Review F)) :
    Prop :=
  ∃ c, ofRange initial_reviews = .ok c ∧ c.reviews_ = initial_reviews.elements ∧
    (postAll c rs).reviews_ = initial_reviews.elements ++ rs.filter (·.Valid)

variable {initial_reviews : View.{0, 0} (Review F)}

/-- A range without reviews makes an empty store. -/
lemma ofRange_of_nil (h : initial_reviews.elements = []) : ofRange initial_reviews = .ok {} := by
  have hcopy := View.copyTo_of_fits (v := initial_reviews) [] 0 (by simp [h])
  simp only [h, List.append_nil, List.take_nil, List.drop_nil] at hcopy
  simp only [ofRange, hcopy]
  rfl

/-- Any other range is written past the end. -/
lemma ofRange_of_ne_nil (h : initial_reviews.elements ≠ []) :
    ofRange initial_reviews = .error .pastTheEnd := by
  have hcopy := View.copyTo_of_not_fits (v := initial_reviews) [] 0 le_rfl (by simpa using h)
  simp only [ofRange, hcopy]
  rfl

/-- The reviews of a range are kept exactly if there are none, and no valid review is posted
afterwards: the store that is made of such a range is empty, and as such accepts no post. -/
theorem keepsInitialReviews_iff (initial_reviews : View.{0, 0} (Review F))
    (rs : List (Review F)) :
    (KeepsInitialReviews initial_reviews rs ↔
      initial_reviews.elements = [] ∧ ∀ r ∈ rs, ¬ r.Valid) ∧
    ∀ c r, ofRange initial_reviews = .ok c → Throws (store.postReview r) c := by
  by_cases h : initial_reviews.elements = []
  · refine ⟨⟨?_, ?_⟩, ?_⟩
    · rintro ⟨c, hc, -, hposted⟩
      rw [ofRange_of_nil h] at hc
      cases hc
      rw [postAll_of_empty rfl, h, List.nil_append] at hposted
      exact ⟨h, fun r hr => by simpa using List.filter_eq_nil_iff.mp hposted.symm r hr⟩
    · rintro ⟨-, hrs⟩
      refine ⟨{}, ofRange_of_nil h, h.symm, ?_⟩
      rw [postAll_of_empty rfl, h, List.filter_eq_nil_iff.mpr (by simpa using hrs)]
      rfl
    · rintro c r hc
      rw [ofRange_of_nil h] at hc
      cases hc
      by_cases hr : r.Valid
      · exact throws_of_error (postReview_of_empty hr rfl)
      · obtain ⟨what, hrun⟩ := postReview_of_invalid hr
        exact throws_of_error hrun
  · refine ⟨⟨?_, fun hnil => absurd hnil.1 h⟩, ?_⟩
    · rintro ⟨c, hc, _⟩
      rw [ofRange_of_ne_nil h] at hc
      cases hc
    · intro c r hc
      rw [ofRange_of_ne_nil h] at hc
      cases hc

/-- A vector with one review is not kept. -/
theorem initial_review_written_past_end :
    ¬ ∀ (initial_reviews : View.{0, 0} (Review ℕ)) (rs : List (Review ℕ)),
      KeepsInitialReviews initial_reviews rs := by
  intro hall
  obtain ⟨c, hc, _⟩ := hall (View.ofList [⟨1, 2, "3", Stars.five⟩]) []
  rw [ofRange_of_ne_nil (by simp)] at hc
  cases hc

end CustomerReviewStore

end Reviews
