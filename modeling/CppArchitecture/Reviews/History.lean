import CppArchitecture.Core.Machine
import CppArchitecture.Reviews.Basic

/-!
# The history of visited merchants

Entries of the history cache the review of their merchant. `rate` compares the new rating with
the cached one and posts the review, through the entry, only if they differ.
-/

namespace Reviews

open Core

variable {F : Type} [LT F] [OfNat F 0] [OfNat F 5] {ε σ : Type}

/-- How a call on the history fails: an exception of the store, `std::bad_optional_access`, or
an index past the end, which `operator[]` does not check. -/
inductive Fault (ε : Type) where
  | thrown (e : ε)
  | badOptionalAccess
  | outOfBounds
  deriving DecidableEq, Repr

/-- `visited_merchant`, apart from the reference to its review store. -/
structure VisitedMerchant (F : Type) [LT F] [OfNat F 0] [OfNat F 5] where
  review_ : Review F

namespace VisitedMerchant

/-- The constructor, which loads the review from the store. -/
def ofStore (store : ICustomerReviewStore F ε σ) (id : MerchantId) :
    EStateM (Fault ε) σ (VisitedMerchant F) := do
  match ← (store.getReviewForMerchant id).adaptExcept .thrown with
  | some review => return ⟨review⟩
  | none => throw .badOptionalAccess

def getRating (m : VisitedMerchant F) : Stars F := m.review_.rating

/-- `review_.rating = s` -/
def setRating (m : VisitedMerchant F) (s : Stars F) : VisitedMerchant F :=
  ⟨{ m.review_ with rating := s }⟩

/-- The entry caches the rating before it posts the review. -/
def postRating (store : ICustomerReviewStore F ε σ) (s : Stars F) :
    EStateM ε (VisitedMerchant F × σ) PUnit := do
  modify fun p => (p.1.setRating s, p.2)
  let p ← get
  zoom Prod.snd (fun p s => (p.1, s)) (store.postReview p.1.review_)

@[simp] lemma getRating_setRating (m : VisitedMerchant F) (s : Stars F) :
    (m.setRating s).getRating = s := rfl

@[simp] lemma rating_setRating (m : VisitedMerchant F) (s : Stars F) :
    (m.setRating s).review_.rating = s := rfl

@[simp] lemma merchant_setRating (m : VisitedMerchant F) (s : Stars F) :
    (m.setRating s).review_.merchant = m.review_.merchant := rfl

@[simp] lemma setRating_setRating (m : VisitedMerchant F) (s t : Stars F) :
    (m.setRating s).setRating t = m.setRating t := rfl

@[simp] lemma setRating_getRating (m : VisitedMerchant F) : m.setRating m.getRating = m := rfl

variable {store : ICustomerReviewStore F ε σ} {m : VisitedMerchant F} {s : Stars F} {c d : σ}

lemma postRating_ok {u : PUnit} (h : (store.postReview (m.setRating s).review_).run c = .ok u d) :
    (postRating store s).run (m, c) = .ok u (m.setRating s, d) := by
  simp only [postRating, EStateM.run_bind, EStateM.run_modify, EStateM.run_get]
  exact run_zoom_ok h

lemma postRating_error {e : ε}
    (h : (store.postReview (m.setRating s).review_).run c = .error e d) :
    (postRating store s).run (m, c) = .error e (m.setRating s, d) := by
  simp only [postRating, EStateM.run_bind, EStateM.run_modify, EStateM.run_get]
  exact run_zoom_error h

lemma ofStore_of_some {id : MerchantId} {r : Review F}
    (h : (store.getReviewForMerchant id).run c = .ok (some r) d) :
    (ofStore store id).run c = .ok ⟨r⟩ d := by
  simp [ofStore, EStateM.run_adaptExcept, h]

/-- The constructor posts nothing, whether it returns or throws. -/
lemma after_ofStore_recording {id : MerchantId} (log : List (Review F)) :
    after (ofStore store.recording id) (c, log) = (after (ofStore store id) c, log) := by
  simp only [after, ofStore, ICustomerReviewStore.recording, EStateM.run_bind,
    EStateM.run_adaptExcept, run_zoom]
  rcases (store.getReviewForMerchant id).run c with ⟨_ | r, d⟩ | ⟨e, d⟩ <;> rfl

end VisitedMerchant

/-- `history_of_visited_merchants`, with the store its entries refer to. -/
structure HistoryOfVisitedMerchants (F : Type) [LT F] [OfNat F 0] [OfNat F 5] (σ : Type) where
  merchants_ : List (VisitedMerchant F)
  store : σ

namespace HistoryOfVisitedMerchants

/-- `add`, which returns the index of the new entry. -/
def add (merchant : VisitedMerchant F) : EStateM ε (HistoryOfVisitedMerchants F σ) ℕ := do
  modify fun h => { h with merchants_ := h.merchants_ ++ [merchant] }
  return (← get).merchants_.length - 1

/-- `add(visited_merchant(id, store))` -/
def addVisited (store : ICustomerReviewStore F ε σ) (id : MerchantId) :
    EStateM (Fault ε) (HistoryOfVisitedMerchants F σ) ℕ := do
  let merchant ← zoom (·.store) (fun h s => { h with store := s })
    (VisitedMerchant.ofStore store id)
  add merchant

/-- Call a member function of the entry at `index`. -/
def onMerchant (index : ℕ) (merchant : VisitedMerchant F)
    (x : EStateM ε (VisitedMerchant F × σ) PUnit) :
    EStateM (Fault ε) (HistoryOfVisitedMerchants F σ) PUnit :=
  zoom (fun h => (merchant, h.store)) (fun h p => ⟨h.merchants_.set index p.1, p.2⟩)
    (x.adaptExcept .thrown)

def rate [BEq F] (store : ICustomerReviewStore F ε σ) (merchant_index : ℕ)
    (new_rating : Stars F) : EStateM (Fault ε) (HistoryOfVisitedMerchants F σ) PUnit := do
  let h ← get
  match h.merchants_[merchant_index]? with
  | none => throw .outOfBounds
  | some merchant =>
    if merchant.getRating.differs new_rating then
      onMerchant merchant_index merchant (VisitedMerchant.postRating store new_rating)

def getMerchant (merchant_index : ℕ) :
    EStateM (Fault ε) (HistoryOfVisitedMerchants F σ) (VisitedMerchant F) := do
  match (← get).merchants_[merchant_index]? with
  | none => throw .outOfBounds
  | some merchant => return merchant

/-! ### What the calls do -/

variable {store : ICustomerReviewStore F ε σ} {h : HistoryOfVisitedMerchants F σ}
  {m : VisitedMerchant F} {i : ℕ} {s : Stars F} {d : σ}

lemma add_run : (add m).run h =
    (.ok h.merchants_.length ⟨h.merchants_ ++ [m], h.store⟩ : EStateM.Result ε _ _) := by
  simp only [add, EStateM.run_bind, EStateM.run_modify, EStateM.run_get, EStateM.run_pure]
  rw [List.length_append, List.length_singleton, Nat.add_sub_cancel]

/-- An entry is added exactly if it can be constructed. -/
lemma addVisited_eq_ok_iff {id : MerchantId} {h' : HistoryOfVisitedMerchants F σ} :
    (addVisited store id).run h = .ok i h' ↔
      ∃ m d, (VisitedMerchant.ofStore store id).run h.store = .ok m d ∧
        i = h.merchants_.length ∧ h' = ⟨h.merchants_ ++ [m], d⟩ := by
  rw [addVisited, run_bind_eq_ok]
  constructor
  · rintro ⟨m, r, hm, hadd⟩
    obtain ⟨d, hd, rfl⟩ := run_zoom_eq_ok.mp hm
    rw [add_run] at hadd
    cases hadd
    exact ⟨m, d, hd, rfl, rfl⟩
  · rintro ⟨m, d, hm, rfl, rfl⟩
    exact ⟨m, _, run_zoom_ok hm, add_run⟩

/-- An entry that cannot be constructed is not added. -/
lemma addVisited_error {id : MerchantId} {e : Fault ε}
    (hm : (VisitedMerchant.ofStore store id).run h.store = .error e d) :
    (addVisited store id).run h = .error e ⟨h.merchants_, d⟩ := by
  rw [addVisited, EStateM.run_bind, run_zoom_error hm]

/-- Adding an entry leaves the store as the constructor of the entry does. -/
lemma after_addVisited_store {id : MerchantId} :
    (after (addVisited store id) h).store = after (VisitedMerchant.ofStore store id) h.store := by
  cases hm : (VisitedMerchant.ofStore store id).run h.store with
  | ok m d => rw [after_ok hm, after_ok (addVisited_eq_ok_iff.mpr ⟨m, d, hm, rfl, rfl⟩)]
  | error e d => rw [after_error hm, after_error (addVisited_error hm)]

variable [BEq F]

lemma rate_outOfBounds (hm : h.merchants_[i]? = none) :
    (rate store i s).run h = .error .outOfBounds h := by
  simp [rate, hm]

/-- A rating equal to the cached one is not posted. -/
lemma rate_same (hm : h.merchants_[i]? = some m) (hs : m.getRating.differs s = false) :
    (rate store i s).run h = .ok ⟨⟩ h := by
  simp [rate, hm, hs]

lemma rate_posted {u : PUnit} (hm : h.merchants_[i]? = some m)
    (hs : m.getRating.differs s = true)
    (hpost : (store.postReview (m.setRating s).review_).run h.store = .ok u d) :
    (rate store i s).run h = .ok u ⟨h.merchants_.set i (m.setRating s), d⟩ := by
  have hrun := VisitedMerchant.postRating_ok hpost
  simp only [rate, EStateM.run_bind, EStateM.run_get, hm, hs, if_true]
  refine run_zoom_ok (p := (m.setRating s, d)) ?_
  simp [EStateM.run_adaptExcept, hrun]

lemma rate_rejected {e : ε} (hm : h.merchants_[i]? = some m)
    (hs : m.getRating.differs s = true)
    (hpost : (store.postReview (m.setRating s).review_).run h.store = .error e d) :
    (rate store i s).run h = .error (.thrown e) ⟨h.merchants_.set i (m.setRating s), d⟩ := by
  have hrun := VisitedMerchant.postRating_error hpost
  simp only [rate, EStateM.run_bind, EStateM.run_get, hm, hs, if_true]
  refine run_zoom_error (p := (m.setRating s, d)) ?_
  simp [EStateM.run_adaptExcept, hrun]

end HistoryOfVisitedMerchants

/-! ### Histories in use -/

/-- What a client does with a history: add a visited merchant, or rate an entry. -/
inductive Op (F : Type) [LT F] [OfNat F 0] [OfNat F 5] where
  | add (id : MerchantId)
  | rate (index : ℕ) (new_rating : Stars F)

namespace HistoryOfVisitedMerchants

variable [BEq F]

def perform (store : ICustomerReviewStore F ε σ) :
    Op F → EStateM (Fault ε) (HistoryOfVisitedMerchants F σ) PUnit
  | .add id => do let _ ← addVisited store id
  | .rate index new_rating => rate store index new_rating

/-- The calls that return, one after the other. -/
def machine (store : ICustomerReviewStore F ε σ) :
    Machine (HistoryOfVisitedMerchants F σ) (Op F) :=
  Machine.ofMethod (perform store)

/-- The reviews a call passes to `post_review`. -/
def reviewsPosted (store : ICustomerReviewStore F ε σ) (op : Op F)
    (h : HistoryOfVisitedMerchants F σ) : List (Review F) :=
  (after (perform store.recording op) ⟨h.merchants_, (h.store, [])⟩).store.2

variable {store : ICustomerReviewStore F ε σ} {h h' : HistoryOfVisitedMerchants F σ}
  {m : VisitedMerchant F} {i : ℕ} {s : Stars F}

lemma step_eq_some_iff {op : Op F} :
    (machine store).step h op = some h' ↔ ∃ u, (perform store op).run h = .ok u h' :=
  Machine.ofMethod_step

/-- A new entry stands at the end, as its constructor has loaded it. -/
lemma step_add_iff {id : MerchantId} : (machine store).step h (.add id) = some h' ↔
    ∃ m d, (VisitedMerchant.ofStore store id).run h.store = .ok m d ∧
      h' = ⟨h.merchants_ ++ [m], d⟩ := by
  simp only [step_eq_some_iff, perform, run_bind_eq_ok, EStateM.run_pure]
  constructor
  · rintro ⟨u, i, r, hadd, hr⟩
    cases hr
    obtain ⟨m, d, hm, _, rfl⟩ := addVisited_eq_ok_iff.mp hadd
    exact ⟨m, d, hm, rfl⟩
  · rintro ⟨m, d, hm, rfl⟩
    exact ⟨⟨⟩, _, _, addVisited_eq_ok_iff.mpr ⟨m, d, hm, rfl, rfl⟩, rfl⟩

/-- A rate call that returns has posted the review under the new rating, or changed nothing
because the rating is the cached one. -/
lemma step_rate_iff : (machine store).step h (.rate i s) = some h' ↔
    ∃ m, h.merchants_[i]? = some m ∧
      ((m.getRating.differs s = false ∧ h' = h) ∨
       (m.getRating.differs s = true ∧
        ∃ u d, (store.postReview (m.setRating s).review_).run h.store = .ok u d ∧
          h' = ⟨h.merchants_.set i (m.setRating s), d⟩)) := by
  rw [step_eq_some_iff]
  change (∃ u, (rate store i s).run h = .ok u h') ↔ _
  constructor
  · rintro ⟨u, hrun⟩
    cases hm : h.merchants_[i]? with
    | none =>
      rw [rate_outOfBounds hm] at hrun
      cases hrun
    | some m =>
      refine ⟨m, rfl, ?_⟩
      cases hs : m.getRating.differs s with
      | false =>
        rw [rate_same hm hs] at hrun
        cases hrun
        exact .inl ⟨rfl, rfl⟩
      | true =>
        cases hpost : (store.postReview (m.setRating s).review_).run h.store with
        | ok v d =>
          rw [rate_posted hm hs hpost] at hrun
          cases hrun
          exact .inr ⟨rfl, _, d, rfl, rfl⟩
        | error e d =>
          rw [rate_rejected hm hs hpost] at hrun
          cases hrun
  · rintro ⟨m, hm, ⟨hs, rfl⟩ | ⟨hs, u, d, hpost, rfl⟩⟩
    · exact ⟨⟨⟩, rate_same hm hs⟩
    · exact ⟨u, rate_posted hm hs hpost⟩

/-- A rate call on an entry returns if the store accepts the review under the new rating. -/
lemma step_rate_isSome (hm : h.merchants_[i]? = some m)
    (hpost : ¬ Throws (store.postReview (m.setRating s).review_) h.store) :
    ((machine store).step h (.rate i s)).isSome := by
  rw [Option.isSome_iff_exists]
  cases hs : m.getRating.differs s with
  | false => exact ⟨h, step_rate_iff.mpr ⟨m, hm, .inl ⟨hs, rfl⟩⟩⟩
  | true =>
    cases hrun : (store.postReview (m.setRating s).review_).run h.store with
    | ok u d => exact ⟨_, step_rate_iff.mpr ⟨m, hm, .inr ⟨hs, u, d, hrun, rfl⟩⟩⟩
    | error e d => exact absurd (throws_of_error hrun) hpost

omit [BEq F] in
/-- After an update an entry is the new one, or an old one in another place. -/
lemma entry_of_set {entries : List (VisitedMerchant F)} {j : ℕ} {n : VisitedMerchant F}
    (hi : i < entries.length) (hn : (entries.set i m)[j]? = some n) :
    (j = i ∧ n = m) ∨ (j ≠ i ∧ entries[j]? = some n) := by
  by_cases hji : j = i
  · subst hji
    rw [List.getElem?_set_self hi] at hn
    exact .inl ⟨rfl, (Option.some.inj hn).symm⟩
  · rw [List.getElem?_set_ne (Ne.symm hji)] at hn
    exact .inr ⟨hji, hn⟩

/-- A step leaves every entry in place but the one it rates. -/
lemma step_getElem_of_ne {op : Op F} (hstep : (machine store).step h op = some h')
    (hop : ∀ s, op ≠ .rate i s) (hm : h.merchants_[i]? = some m) :
    h'.merchants_[i]? = some m := by
  match op with
  | .add id =>
    obtain ⟨m', d, _, rfl⟩ := step_add_iff.mp hstep
    have hi : i < h.merchants_.length := (List.getElem?_eq_some_iff.mp hm).1
    rwa [List.getElem?_append_left hi]
  | .rate j s =>
    have hij : j ≠ i := by
      rintro rfl
      exact hop s rfl
    obtain ⟨m', _, ⟨_, rfl⟩ | ⟨_, u, d, _, rfl⟩⟩ := step_rate_iff.mp hstep
    · exact hm
    · rwa [List.getElem?_set_ne hij]

/-- The rated entry caches the new rating, and is otherwise as it was. -/
lemma step_getElem_rated [LawfulBEq F] (hstep : (machine store).step h (.rate i s) = some h')
    (hm : h.merchants_[i]? = some m) : h'.merchants_[i]? = some (m.setRating s) := by
  obtain ⟨m', hm', ⟨hs, rfl⟩ | ⟨_, u, d, _, rfl⟩⟩ := step_rate_iff.mp hstep
  · obtain rfl : m = m' := Option.some.inj (hm.symm.trans hm')
    obtain rfl : m.getRating = s := Stars.differs_eq_false_iff.mp hs
    rw [VisitedMerchant.setRating_getRating, hm]
  · obtain rfl : m = m' := Option.some.inj (hm.symm.trans hm')
    have hi : i < h.merchants_.length := (List.getElem?_eq_some_iff.mp hm).1
    exact List.getElem?_set_self hi

lemma step_rate_lt (hstep : (machine store).step h (.rate i s) = some h') :
    i < h.merchants_.length := by
  obtain ⟨m, hm, _⟩ := step_rate_iff.mp hstep
  exact (List.getElem?_eq_some_iff.mp hm).1

lemma step_length_le {op : Op F} (hstep : (machine store).step h op = some h') :
    h.merchants_.length ≤ h'.merchants_.length := by
  match op with
  | .add id =>
    obtain ⟨m, d, _, rfl⟩ := step_add_iff.mp hstep
    simp
  | .rate j s =>
    obtain ⟨m, _, ⟨_, rfl⟩ | ⟨_, u, d, _, rfl⟩⟩ := step_rate_iff.mp hstep
    · exact le_rfl
    · simp

/-- Only entries that are there are rated. -/
lemma lt_length_of_rated {ops : List (Op F)} (hrun : (machine store).run h ops = some h')
    (hmem : .rate i s ∈ ops) : i < h'.merchants_.length := by
  refine Machine.run_induction (P := fun ops h' => .rate i s ∈ ops → i < h'.merchants_.length)
    (by simp) ?_ hrun hmem
  intro ops k op h' _ ih hstep hmem
  rcases List.mem_append.mp hmem with hmem | hmem
  · exact (ih hmem).trans_le (step_length_le hstep)
  · obtain rfl := List.mem_singleton.mp hmem
    exact (step_rate_lt hstep).trans_le (step_length_le hstep)

/-! ### What a call posts -/

/-- Adding an entry posts nothing. -/
lemma reviewsPosted_add {id : MerchantId} : reviewsPosted store (.add id) h = [] := by
  have hafter : after (perform store.recording (.add id)) ⟨h.merchants_, (h.store, [])⟩ =
      after (addVisited store.recording id) ⟨h.merchants_, (h.store, [])⟩ := by
    simp only [perform, after, EStateM.run_bind]
    rcases (addVisited store.recording id).run _ with _ | _ <;> rfl
  rw [reviewsPosted, hafter, after_addVisited_store, VisitedMerchant.after_ofStore_recording]

/-- A rate call passes the review under the new rating to `post_review` if the rating differs
from the cached one, whether or not the store accepts it. -/
lemma reviewsPosted_rate (hm : h.merchants_[i]? = some m) :
    reviewsPosted store (.rate i s) h =
      if m.getRating.differs s then [(m.setRating s).review_] else [] := by
  change (after (rate store.recording i s) ⟨h.merchants_, (h.store, [])⟩).store.2 = _
  replace hm : (mk h.merchants_ (h.store, ([] : List (Review F)))).merchants_[i]? = some m := hm
  cases hs : m.getRating.differs s with
  | false =>
    rw [after_ok (rate_same hm hs)]
    rfl
  | true =>
    cases hpost : (store.postReview (m.setRating s).review_).run h.store with
    | ok u d =>
      rw [after_ok (rate_posted hm hs (ICustomerReviewStore.recording_post_ok hpost))]
      rfl
    | error e d =>
      rw [after_error (rate_rejected hm hs (ICustomerReviewStore.recording_post_error hpost))]
      rfl

end HistoryOfVisitedMerchants

end Reviews
