import CppArchitecture.Reviews.History

/-!
# Rejected ratings

The store may throw from `post_review`. An entry caches the new rating before it posts the
review, so a rejected rating stays in the cache: the entry no longer shows what the store holds,
and a retry finds the rating cached and does not post. A call recovers exactly if its post is
not rejected, or is rejected for the very rating the store holds.
-/

namespace Reviews

open Core

variable {F : Type} [LT F] [OfNat F 0] [OfNat F 5] {ε σ : Type}

namespace HistoryOfVisitedMerchants

variable {store : ICustomerReviewStore F ε σ}

/-- Every entry caches the rating the store holds for its merchant. -/
def Synced (K : ReviewMap store) (h : HistoryOfVisitedMerchants F σ) : Prop :=
  ∀ (i : ℕ) (m : VisitedMerchant F), h.merchants_[i]? = some m →
    (K.lookup h.store m.review_.merchant).map (·.rating) = some m.getRating

/-- There is one entry for each merchant. -/
def OnePerMerchant (h : HistoryOfVisitedMerchants F σ) : Prop :=
  ∀ (i j : ℕ) (m n : VisitedMerchant F), h.merchants_[i]? = some m → h.merchants_[j]? = some n →
    m.review_.merchant = n.review_.merchant → i = j

variable [BEq F]

/-- Rate an entry, and go on if the call throws. -/
def attempt (store : ICustomerReviewStore F ε σ) (h : HistoryOfVisitedMerchants F σ)
    (call : ℕ × Stars F) : HistoryOfVisitedMerchants F σ :=
  after (rate store call.1 call.2) h

/-- The call exits with an exception of the store. -/
def Rejected (store : ICustomerReviewStore F ε σ) (h : HistoryOfVisitedMerchants F σ)
    (call : ℕ × Stars F) : Prop :=
  ∃ e h', (rate store call.1 call.2).run h = .error (.thrown e) h'

/-- If the call is rejected, the entry still shows the rating the store holds, and the same call
passes a review to `post_review` again. -/
def Recovers (K : ReviewMap store) (h : HistoryOfVisitedMerchants F σ) (call : ℕ × Stars F) :
    Prop :=
  Rejected store h call →
    (∀ m, (attempt store h call).merchants_[call.1]? = some m →
      (K.lookup (attempt store h call).store m.review_.merchant).map (·.rating) =
        some m.getRating) ∧
    reviewsPosted store (.rate call.1 call.2) (attempt store h call) ≠ []

/-- The rating compares equal to the cached one, or it is the cached one, or the store accepts
the review under it. -/
def Tolerated (store : ICustomerReviewStore F ε σ) (h : HistoryOfVisitedMerchants F σ)
    (call : ℕ × Stars F) : Prop :=
  ∀ m, h.merchants_[call.1]? = some m → (call.2 == m.getRating) = true ∨ call.2 = m.getRating ∨
    ¬ Throws (store.postReview (m.setRating call.2).review_) h.store

variable {K : ReviewMap store} {h : HistoryOfVisitedMerchants F σ} {i : ℕ} {s : Stars F}
  {m : VisitedMerchant F}

lemma differs_eq_true_iff : m.getRating.differs s = true ↔ ¬ (s == m.getRating) = true := by
  simp [Stars.differs]

lemma rejected_iff : Rejected store h (i, s) ↔ ∃ m, h.merchants_[i]? = some m ∧
    m.getRating.differs s = true ∧
    Throws (store.postReview (m.setRating s).review_) h.store := by
  constructor
  · rintro ⟨e, h', hrun⟩
    cases hm : h.merchants_[i]? with
    | none =>
      rw [rate_outOfBounds hm] at hrun
      cases hrun
    | some m =>
      refine ⟨m, rfl, ?_⟩
      cases hs : m.getRating.differs s with
      | false =>
        rw [rate_same hm hs] at hrun
        cases hrun
      | true =>
        refine ⟨rfl, ?_⟩
        cases hpost : (store.postReview (m.setRating s).review_).run h.store with
        | ok u d =>
          rw [rate_posted hm hs hpost] at hrun
          cases hrun
        | error e d => exact throws_of_error hpost
  · rintro ⟨m, hm, hs, e, d, hpost⟩
    exact ⟨e, _, rate_rejected hm hs hpost⟩

/-- After a rejected call the entry caches the rating that was rejected, and the store holds
what it held. -/
lemma attempt_rejected (K : ReviewMap store) (hm : h.merchants_[i]? = some m)
    (hs : m.getRating.differs s = true)
    (hthrows : Throws (store.postReview (m.setRating s).review_) h.store) :
    (attempt store h (i, s)).merchants_ = h.merchants_.set i (m.setRating s) ∧
      K.lookup (attempt store h (i, s)).store = K.lookup h.store := by
  obtain ⟨e, d, hpost⟩ := hthrows
  rw [attempt, after_error (rate_rejected hm hs hpost)]
  exact ⟨rfl, K.post_error _ _ _ _ hpost⟩

/-- From a synced history, exactly the tolerated calls recover. -/
lemma recovers_iff_tolerated (hsync : Synced K h) :
    Recovers K h (i, s) ↔ Tolerated store h (i, s) := by
  constructor
  · intro hrec m hm
    by_contra hbad
    simp only [not_or, not_not] at hbad
    obtain ⟨hs, hne, hthrows⟩ := hbad
    have hdiffers := differs_eq_true_iff.mpr hs
    obtain ⟨hmerchants, hlookup⟩ := attempt_rejected K hm hdiffers hthrows
    have hi : i < h.merchants_.length := (List.getElem?_eq_some_iff.mp hm).1
    have hshown := (hrec (rejected_iff.mpr ⟨m, hm, hdiffers, hthrows⟩)).1 (m.setRating s)
      (by rw [hmerchants, List.getElem?_set_self hi])
    rw [hlookup, VisitedMerchant.merchant_setRating, hsync i m hm] at hshown
    exact hne (Option.some.inj hshown).symm
  · intro htol hrej
    obtain ⟨m, hm, hdiffers, hthrows⟩ := rejected_iff.mp hrej
    obtain ⟨hmerchants, hlookup⟩ := attempt_rejected K hm hdiffers hthrows
    have hs : s = m.getRating := by
      rcases htol m hm with hs | hs | hpost
      · exact absurd hs (differs_eq_true_iff.mp hdiffers)
      · exact hs
      · exact absurd hthrows hpost
    subst hs
    have hi : i < h.merchants_.length := (List.getElem?_eq_some_iff.mp hm).1
    have hm' : (attempt store h (i, m.getRating)).merchants_[i]? = some m := by
      rw [hmerchants, List.getElem?_set_self hi, VisitedMerchant.setRating_getRating]
    refine ⟨fun n hn => ?_, ?_⟩
    · obtain rfl : m = n := Option.some.inj (hm'.symm.trans hn)
      rw [hlookup]
      exact hsync i m hm
    · rw [reviewsPosted_rate hm', if_pos hdiffers]
      exact List.cons_ne_nil _ _

/-- A tolerated call changes nothing, or caches and stores the new rating. -/
lemma attempt_tolerated (K : ReviewMap store) (htol : Tolerated store h (i, s)) :
    ((attempt store h (i, s)).merchants_ = h.merchants_ ∧
      K.lookup (attempt store h (i, s)).store = K.lookup h.store) ∨
    ∃ m, h.merchants_[i]? = some m ∧
      (attempt store h (i, s)).merchants_ = h.merchants_.set i (m.setRating s) ∧
      K.lookup (attempt store h (i, s)).store =
        Function.update (K.lookup h.store) m.review_.merchant (some (m.setRating s).review_) := by
  cases hm : h.merchants_[i]? with
  | none =>
    rw [attempt, after_error (rate_outOfBounds hm)]
    exact .inl ⟨rfl, rfl⟩
  | some m =>
    cases hs : m.getRating.differs s with
    | false =>
      rw [attempt, after_ok (rate_same hm hs)]
      exact .inl ⟨rfl, rfl⟩
    | true =>
      cases hpost : (store.postReview (m.setRating s).review_).run h.store with
      | ok u d =>
        rw [attempt, after_ok (rate_posted hm hs hpost)]
        exact .inr ⟨m, rfl, rfl, K.post_ok _ _ _ _ hpost⟩
      | error e d =>
        -- the store rejects the very rating that is cached
        have heq : s = m.getRating := by
          rcases htol m hm with heq | heq | haccept
          · exact absurd heq (differs_eq_true_iff.mp hs)
          · exact heq
          · exact absurd (throws_of_error hpost) haccept
        obtain ⟨hmerchants, hlookup⟩ := attempt_rejected K hm hs (throws_of_error hpost)
        refine .inl ⟨?_, hlookup⟩
        obtain ⟨hi, rfl⟩ := List.getElem?_eq_some_iff.mp hm
        rw [hmerchants, heq, VisitedMerchant.setRating_getRating, List.set_getElem_self]

/-- A tolerated call keeps the history synced, with one entry for each merchant. -/
lemma Synced.attempt (hsync : Synced K h) (hone : OnePerMerchant h)
    (htol : Tolerated store h (i, s)) :
    Synced K (attempt store h (i, s)) ∧ OnePerMerchant (attempt store h (i, s)) := by
  rcases attempt_tolerated K htol with ⟨hmerchants, hlookup⟩ | ⟨m, hm, hmerchants, hlookup⟩
  · simp only [Synced, OnePerMerchant, hmerchants, hlookup]
    exact ⟨hsync, hone⟩
  have hi : i < h.merchants_.length := (List.getElem?_eq_some_iff.mp hm).1
  -- an entry after the call has the merchant of the entry before it
  have hentry : ∀ (j : ℕ) (n : VisitedMerchant F),
      (HistoryOfVisitedMerchants.attempt store h (i, s)).merchants_[j]? = some n →
      (j = i ∧ n = m.setRating s) ∨ (j ≠ i ∧ h.merchants_[j]? = some n) := by
    intro j n hn
    rw [hmerchants] at hn
    exact entry_of_set hi hn
  constructor
  · intro j n hn
    rw [hlookup]
    rcases hentry j n hn with ⟨rfl, rfl⟩ | ⟨hji, hn⟩
    · simp
    · have hne : n.review_.merchant ≠ m.review_.merchant := fun heq => hji (hone j i n m hn hm heq)
      rw [Function.update_of_ne hne]
      exact hsync j n hn
  · intro j k n p hn hp heq
    rcases hentry j n hn with ⟨rfl, rfl⟩ | ⟨_, hn'⟩ <;>
      rcases hentry k p hp with ⟨rfl, rfl⟩ | ⟨_, hp'⟩
    · rfl
    · exact hone j k m p hm hp' heq
    · exact hone j k n m hn' hm heq
    · exact hone j k n p hn' hp' heq

/-- A call recovers exactly if it is tolerated, from any synced history with one entry for each
merchant; and the calls of a run all recover exactly if they are all tolerated. -/
theorem recovers_iff (hsync : Synced K h) (hone : OnePerMerchant h)
    (calls : List (ℕ × Stars F)) :
    (∀ call, Recovers K h call ↔ Tolerated store h call) ∧
    ((Machine.total (attempt store)).Meets (Recovers K) h calls ↔
      (Machine.total (attempt store)).Meets (Tolerated store) h calls) := by
  refine ⟨fun call => recovers_iff_tolerated hsync, ?_⟩
  refine Machine.meets_congr (Q := fun _ h => Synced K h ∧ OnePerMerchant h) ⟨hsync, hone⟩ ?_ ?_
  · intro _ k call hk
    exact recovers_iff_tolerated hk.1
  · rintro _ k call _ hk ⟨rfl⟩ htol
    exact hk.1.attempt hk.2 htol

/-! ### A store that rejects -/

/-- A store that holds one review and rejects every post. -/
def rejectingStore (r : Review F) : ICustomerReviewStore F Exception PUnit where
  getReviewForMerchant id := pure (if id = r.merchant then some r else none)
  postReview _ := throw (.invalidArgument "Trying to post a review under a different customer ID")

def rejectingStore.reviewMap (r : Review F) : ReviewMap (rejectingStore r) where
  lookup _ id := if id = r.merchant then some r else none
  get_run id s := rfl
  keyed s id q h := by
    split_ifs at h with hid
    cases h
    exact hid.symm
  post_ok q s u t h := by cases h
  post_error q s e t h := rfl

/-- The review of the tests, in a store that rejects every post. -/
def rejectedReview : Review ℕ := ⟨7777, 1234, "Very nice!", .five⟩

lemma synced_rejectedReview :
    Synced (rejectingStore.reviewMap rejectedReview) ⟨[⟨rejectedReview⟩], ⟨⟩⟩ := by
  intro i m hm
  obtain rfl := List.mem_singleton.mp (List.mem_of_getElem? hm)
  rfl

lemma onePerMerchant_rejectedReview :
    OnePerMerchant (⟨[⟨rejectedReview⟩], ⟨⟩⟩ : HistoryOfVisitedMerchants ℕ PUnit) := by
  intro i j m n hm hn _
  have hi := (List.getElem?_eq_some_iff.mp hm).1
  have hj := (List.getElem?_eq_some_iff.mp hn).1
  simp only [List.length_singleton] at hi hj
  omega

/-- Rating with the cached rating again is tolerated, and recovers. -/
theorem recovers_iff_same_rating :
    Recovers (rejectingStore.reviewMap rejectedReview) ⟨[⟨rejectedReview⟩], ⟨⟩⟩
      (0, ⟨5, by decide⟩) :=
  ((recovers_iff synced_rejectedReview onePerMerchant_rejectedReview []).1 _).mpr
    fun m hm => .inl (by cases hm; rfl)

/-- A rejected change is cached: the entry shows 4 where the store holds 5. -/
theorem rejected_change_not_recovered :
    ¬ ∀ call : ℕ × Stars ℕ, Recovers (rejectingStore.reviewMap rejectedReview)
      ⟨[⟨rejectedReview⟩], ⟨⟩⟩ call := by
  intro hall
  have hshown := (hall (0, ⟨4, by decide⟩) ⟨_, _, rfl⟩).1
    ⟨⟨7777, 1234, "Very nice!", ⟨4, by decide⟩⟩⟩ rfl
  exact absurd (congrArg (Option.map Stars.value) hshown) (by decide)

end HistoryOfVisitedMerchants

end Reviews
