import CppArchitecture.Reviews.History

/-!
# What an entry posts

Over any interleaving of adds and rates, an entry posts its review once for every change of the
rating it is given: the ratings given to it with immediate repetitions dropped.
-/

namespace Reviews

open Core

/-- Drop each element equal to its immediate predecessor, that of the first being `p`. -/
def dropRepeats {α : Type*} [BEq α] (p : α) : List α → List α
  | [] => []
  | a :: as => if p == a then dropRepeats a as else a :: dropRepeats a as

variable {F : Type} [LT F] [OfNat F 0] [OfNat F 5] {ε σ : Type}

/-- The ratings given to the entry at `index`, in order. -/
def ratingsGiven (index : ℕ) (ops : List (Op F)) : List (Stars F) :=
  ops.filterMap fun
    | .rate i s => if i = index then some s else none
    | .add _ => none

section

variable {i : ℕ} {s : Stars F} {op : Op F} {ops : List (Op F)}

lemma ratingsGiven_cons_rate : ratingsGiven i (.rate i s :: ops) = s :: ratingsGiven i ops := by
  simp [ratingsGiven]

lemma ratingsGiven_cons_of_ne (hop : ∀ s, op ≠ .rate i s) :
    ratingsGiven i (op :: ops) = ratingsGiven i ops := by
  match op with
  | .add id => simp [ratingsGiven]
  | .rate j s =>
    have hij : j ≠ i := by
      rintro rfl
      exact hop s rfl
    simp [ratingsGiven, hij]

lemma ratingsGiven_append (pre post : List (Op F)) :
    ratingsGiven i (pre ++ post) = ratingsGiven i pre ++ ratingsGiven i post :=
  List.filterMap_append

lemma ratingsGiven_of_not_rated (h : ∀ s, .rate i s ∉ ops) : ratingsGiven i ops = [] := by
  induction ops with
  | nil => rfl
  | cons op ops ih =>
    rw [ratingsGiven_cons_of_ne fun s hs => h s (hs ▸ List.mem_cons_self)]
    exact ih fun s hs => h s (List.mem_cons_of_mem _ hs)

end

namespace HistoryOfVisitedMerchants

variable [BEq F]

/-- The reviews the entry at `index` passes to `post_review` in a run, those that its
constructor passes included. -/
def reviewsPostedBy (store : ICustomerReviewStore F ε σ) (index : ℕ) :
    HistoryOfVisitedMerchants F σ → List (Op F) → List (Review F)
  | _, [] => []
  | h, op :: ops =>
    let posted := match op with
      | .rate i _ => if i = index then reviewsPosted store op h else []
      -- the entry is put behind those that are there
      | .add _ => if h.merchants_.length = index then reviewsPosted store op h else []
    match (machine store).step h op with
    | some h' => posted ++ reviewsPostedBy store index h' ops
    | none => posted

variable {store : ICustomerReviewStore F ε σ} {h h' h₁ h₂ : HistoryOfVisitedMerchants F σ}
  {m : VisitedMerchant F} {i : ℕ} {s : Stars F} {op : Op F} {ops : List (Op F)}

lemma reviewsPostedBy_cons_rate (hstep : (machine store).step h (.rate i s) = some h') :
    reviewsPostedBy store i h (.rate i s :: ops) =
      reviewsPosted store (.rate i s) h ++ reviewsPostedBy store i h' ops := by
  simp [reviewsPostedBy, hstep]

lemma reviewsPostedBy_cons_of_ne (hstep : (machine store).step h op = some h')
    (hop : ∀ s, op ≠ .rate i s) :
    reviewsPostedBy store i h (op :: ops) = reviewsPostedBy store i h' ops := by
  match op with
  | .add id => simp [reviewsPostedBy, hstep, reviewsPosted_add]
  | .rate j s =>
    have hij : j ≠ i := by
      rintro rfl
      exact hop s rfl
    simp [reviewsPostedBy, hstep, hij]

lemma reviewsPostedBy_append_of_not_rated {post : List (Op F)}
    (hrun : (machine store).run h ops = some h') (hi : ∀ s, .rate i s ∉ ops) :
    reviewsPostedBy store i h (ops ++ post) = reviewsPostedBy store i h' post := by
  induction ops generalizing h with
  | nil =>
    obtain rfl : h = h' := by simpa using hrun
    rfl
  | cons op ops ih =>
    obtain ⟨k, hstep, hrest⟩ := Option.bind_eq_some_iff.mp hrun
    rw [List.cons_append,
      reviewsPostedBy_cons_of_ne hstep fun s hs => hi s (hs ▸ List.mem_cons_self)]
    exact ih hrest fun s hs => hi s (List.mem_cons_of_mem _ hs)

variable [LawfulBEq F]

/-- What an entry caches after a run, and what it has posted in it. -/
lemma run_entry (hm : h.merchants_[i]? = some m) (hrun : (machine store).run h ops = some h') :
    h'.merchants_[i]? =
        some (m.setRating ((ratingsGiven i ops).getLast?.getD m.getRating)) ∧
      reviewsPostedBy store i h ops =
        (dropRepeats m.getRating (ratingsGiven i ops)).map fun s => (m.setRating s).review_ := by
  induction ops generalizing h m with
  | nil =>
    obtain rfl : h = h' := by simpa using hrun
    exact ⟨by simpa [ratingsGiven] using hm, rfl⟩
  | cons op ops ih =>
    obtain ⟨k, hstep, hrest⟩ := Option.bind_eq_some_iff.mp hrun
    by_cases hop : ∃ s, op = .rate i s
    · obtain ⟨s, rfl⟩ := hop
      obtain ⟨hlast, hposts⟩ := ih (step_getElem_rated hstep hm) hrest
      rw [ratingsGiven_cons_rate, reviewsPostedBy_cons_rate hstep, hposts,
        reviewsPosted_rate hm]
      constructor
      · rw [hlast, List.getLast?_cons]
        rfl
      · by_cases hs : m.getRating = s
        · rw [Stars.differs_eq_false_iff.mpr hs]
          simp [dropRepeats, hs, VisitedMerchant.setRating_setRating]
        · simp [(Stars.differs_iff _ _).mpr hs, dropRepeats, hs,
            VisitedMerchant.setRating_setRating]
    · have hop : ∀ s, op ≠ .rate i s := fun s hs => hop ⟨s, hs⟩
      rw [ratingsGiven_cons_of_ne hop, reviewsPostedBy_cons_of_ne hstep hop]
      exact ih (step_getElem_of_ne hstep hop hm) hrest

/-- An entry, from its construction on: its index keeps denoting it, it posts its review once
for every change of the rating given to it, and no other entry's ratings touch it. -/
theorem rate_posts_changes (haccept : store.AcceptsEveryPost) {pre post : List (Op F)}
    {id : MerchantId} {c : σ} (hpre : (machine store).run ⟨[], c⟩ pre = some h₁)
    (hadd : (addVisited store id).run h₁ = .ok i h₂)
    (hpost : (machine store).run h₂ post = some h) :
    (∃ m, (VisitedMerchant.ofStore store id).run h₁.store = .ok m h₂.store ∧
      h₂.merchants_[i]? = some m ∧
      h.merchants_[i]? =
        some (m.setRating ((ratingsGiven i post).getLast?.getD m.getRating)) ∧
      reviewsPostedBy store i ⟨[], c⟩ (pre ++ .add id :: post) =
        (dropRepeats m.getRating (ratingsGiven i (pre ++ .add id :: post))).map
          fun s => { m.review_ with rating := s }) ∧
    (∀ j s, j < h.merchants_.length → ((machine store).step h (.rate j s)).isSome) ∧
    ∀ j s k h', j ≠ k → (machine store).step h (.rate j s) = some h' →
      h'.merchants_[k]? = h.merchants_[k]? := by
  obtain ⟨m, d, hm, rfl, rfl⟩ := addVisited_eq_ok_iff.mp hadd
  have hentry : (h₁.merchants_ ++ [m])[h₁.merchants_.length]? = some m := by simp
  -- the entry is not there before it is added
  have hpre' : ∀ s, .rate h₁.merchants_.length s ∉ pre ++ [.add id] := by
    intro s hs
    rcases List.mem_append.mp hs with hs | hs
    · exact lt_irrefl _ (lt_length_of_rated hpre hs)
    · cases List.mem_singleton.mp hs
  have hpres : (machine store).run ⟨[], c⟩ (pre ++ [.add id]) = some ⟨h₁.merchants_ ++ [m], d⟩ :=
    Machine.run_snoc_eq_some.mpr ⟨h₁, hpre, step_add_iff.mpr ⟨m, d, hm, rfl⟩⟩
  obtain ⟨hlast, hposts⟩ := run_entry hentry hpost
  refine ⟨⟨m, hm, hentry, hlast, ?_⟩, fun j s hj =>
    step_rate_isSome (List.getElem?_eq_getElem hj) (haccept _ _), ?_⟩
  · rw [List.append_cons, reviewsPostedBy_append_of_not_rated hpres hpre', hposts,
      ratingsGiven_append, ratingsGiven_of_not_rated hpre', List.nil_append]
    rfl
  · intro j s k h' hjk hstep
    cases hk : h.merchants_[k]? with
    | some m' => exact step_getElem_of_ne hstep (by rintro s' ⟨rfl⟩; exact hjk rfl) hk
    | none =>
      obtain ⟨m', _, ⟨_, rfl⟩ | ⟨_, u, d, _, rfl⟩⟩ := step_rate_iff.mp hstep
      · exact hk
      · rwa [List.getElem?_set_ne hjk]

/-- A store without checks: one review for each merchant, and every post accepted. -/
def openStore : ICustomerReviewStore F Exception (MerchantId → Option (Review F)) where
  getReviewForMerchant id := do return (← get) id
  postReview r := modify fun s => Function.update s r.merchant (some r)

/-- Every merchant has the review of the tests. -/
def niceReviews : MerchantId → Option (Review ℕ) :=
  fun id => some ⟨7777, id, "Very nice!", .five⟩

/-- The rating of one entry is changed once and then repeated. -/
theorem rate_posts_changes_single :
    reviewsPostedBy openStore 0 ⟨[], niceReviews⟩
        [.add 1234, .rate 0 ⟨4, by decide⟩, .rate 0 ⟨4, by decide⟩] =
      [⟨7777, 1234, "Very nice!", ⟨4, by decide⟩⟩] := by
  have haccept : (openStore (F := ℕ)).AcceptsEveryPost := fun r s => not_throws_of_ok rfl
  have hadd : (addVisited openStore 1234).run ⟨[], niceReviews⟩ = .ok 0
      ⟨[⟨⟨7777, 1234, "Very nice!", .five⟩⟩], niceReviews⟩ := rfl
  have hpost : (machine openStore).run
      ⟨[⟨⟨7777, 1234, "Very nice!", .five⟩⟩], niceReviews⟩
      [.rate 0 ⟨4, by decide⟩, .rate 0 ⟨4, by decide⟩] = some _ := rfl
  obtain ⟨⟨m, hm, -, -, hposts⟩, -, -⟩ := rate_posts_changes haccept Machine.run_nil hadd hpost
  cases hm
  exact hposts

end HistoryOfVisitedMerchants

end Reviews
