import CppArchitecture.Core.Floating
import CppArchitecture.Reviews.History

/-!
# Ratings that are not a number

The constructor of `stars` throws for values above five or below zero. A value that is not a
number is neither, so it becomes a rating, and since it differs from itself it is posted each
time it is given. Ratings stay between zero and five exactly as long as no such rating is put in
a review or given to a merchant.
-/

namespace Reviews

open Core

/-- A client of the application: a history, on a store that writes down what is posted to it,
and the stars that have been constructed. -/
structure Client (F : Type) [LT F] [OfNat F 0] [OfNat F 5] (σ : Type) where
  history : HistoryOfVisitedMerchants F (σ × List (Review F))
  constructed : List (Stars F)

namespace Client

/-- What a client does. Ratings are named by the order of their construction. -/
inductive Call (F : Type) where
  /-- `stars{value}` -/
  | construct (value : F)
  /-- `store.post_review(review{customer, merchant, review, rating})` -/
  | post (customer : CustomerId) (merchant : MerchantId) (review : String) (rating : ℕ)
  /-- `history.add(visited_merchant(id, store))` -/
  | add (id : MerchantId)
  /-- `history.rate(merchant_index, rating)` -/
  | rate (merchant_index rating : ℕ)

section

variable {F : Type} [LT F] [OfNat F 0] [OfNat F 5] {ε σ : Type}

/-- A client with an empty history. -/
def ofStore (s : σ) : Client F σ := ⟨⟨[], (s, [])⟩, []⟩

/-- The reviews passed to `post_review`. -/
def posted (c : Client F σ) : List (Review F) := c.history.store.2

/-- Calls of the client, exceptions caught. There has to be the rating that is used, and the
entry that is rated. -/
def perform [DecidableLT F] [BEq F] (store : ICustomerReviewStore F ε σ) (c : Client F σ) :
    Call F → Option (Client F σ)
  | .construct value =>
    match Stars.ofFloat value with
    | .ok s => some { c with constructed := c.constructed ++ [s] }
    | .error _ => some c
  | .post customer merchant review rating =>
    c.constructed[rating]?.map fun s =>
      let post := store.recording.postReview ⟨customer, merchant, review, s⟩
      { c with history := { c.history with store := after post c.history.store } }
  | .add id =>
    let add := HistoryOfVisitedMerchants.addVisited store.recording id
    some { c with history := after add c.history }
  | .rate merchant_index rating =>
    if merchant_index < c.history.merchants_.length then
      c.constructed[rating]?.map fun s =>
        let rate := HistoryOfVisitedMerchants.rate store.recording merchant_index s
        { c with history := after rate c.history }
    else none

/-- The client that goes on after an exception. -/
def machine [DecidableLT F] [BEq F] (store : ICustomerReviewStore F ε σ) :
    Machine (Client F σ) (Call F) := ⟨perform store⟩

/-! ### What the calls do -/

variable [DecidableLT F] [BEq F] {store : ICustomerReviewStore F ε σ} {c d : Client F σ}
  {i k : ℕ}

omit [DecidableLT F] [BEq F] in
/-- A review is written down whether or not the store accepts it. -/
lemma recording_posted (r : Review F) (p : σ × List (Review F)) :
    (after (store.recording.postReview r) p).2 = p.2 ++ [r] := by
  obtain ⟨s, log⟩ := p
  cases hpost : (store.postReview r).run s with
  | ok u t => rw [after_ok (ICustomerReviewStore.recording_post_ok hpost)]
  | error e t => rw [after_error (ICustomerReviewStore.recording_post_error hpost)]

lemma step_construct {value : F} (hstep : (machine store).step c (.construct value) = some d) :
    d.history = c.history := by
  simp only [machine, perform] at hstep
  split at hstep
  · cases hstep
    rfl
  · cases hstep
    rfl

lemma step_post {customer : CustomerId} {merchant : MerchantId} {review : String}
    (hstep : (machine store).step c (.post customer merchant review k) = some d) :
    ∃ s, c.constructed[k]? = some s ∧ d.history.merchants_ = c.history.merchants_ ∧
      d.posted = c.posted ++ [⟨customer, merchant, review, s⟩] := by
  obtain ⟨s, hs, rfl⟩ := Option.map_eq_some_iff.mp hstep
  exact ⟨s, hs, rfl, recording_posted _ _⟩

/-- A new entry caches the review the store has handed out, if it has. -/
lemma step_add {id : MerchantId} (hstep : (machine store).step c (.add id) = some d) :
    d.posted = c.posted ∧
    ((∃ r t, (store.getReviewForMerchant id).run c.history.store.1 = .ok (some r) t ∧
        d.history.merchants_ = c.history.merchants_ ++ [⟨r⟩]) ∨
      ((∀ r t, (store.getReviewForMerchant id).run c.history.store.1 ≠ .ok (some r) t) ∧
        d.history.merchants_ = c.history.merchants_)) := by
  obtain ⟨⟨merchants, s, log⟩, constructed⟩ := c
  cases hstep
  cases hget : (store.getReviewForMerchant id).run s with
  | ok found t =>
    have hrun : (store.recording.getReviewForMerchant id).run (s, log) = .ok found (t, log) :=
      run_zoom_ok hget
    cases found with
    | some r =>
      have hadd : (HistoryOfVisitedMerchants.addVisited store.recording id).run
          ⟨merchants, (s, log)⟩ = .ok merchants.length ⟨merchants ++ [⟨r⟩], (t, log)⟩ :=
        HistoryOfVisitedMerchants.addVisited_eq_ok_iff.mpr
          ⟨⟨r⟩, (t, log), VisitedMerchant.ofStore_of_some hrun, rfl, rfl⟩
      rw [posted, after_ok hadd]
      exact ⟨rfl, .inl ⟨r, t, rfl, rfl⟩⟩
    | none =>
      have hstore : (VisitedMerchant.ofStore store.recording id).run (s, log) =
          .error .badOptionalAccess (t, log) := by
        simp [VisitedMerchant.ofStore, EStateM.run_adaptExcept, hrun]
      rw [posted, after_error (HistoryOfVisitedMerchants.addVisited_error hstore)]
      exact ⟨rfl, .inr ⟨fun r t h => (by cases h), rfl⟩⟩
  | error e t =>
    have hrun : (store.recording.getReviewForMerchant id).run (s, log) = .error e (t, log) :=
      run_zoom_error hget
    have hstore : (VisitedMerchant.ofStore store.recording id).run (s, log) =
        .error (.thrown e) (t, log) := by
      simp [VisitedMerchant.ofStore, EStateM.run_adaptExcept, hrun]
    rw [posted, after_error (HistoryOfVisitedMerchants.addVisited_error hstore)]
    exact ⟨rfl, .inr ⟨fun r t h => (by cases h), rfl⟩⟩

/-- A rating is given and posted, or compares equal to the cached one. -/
lemma step_rate (hstep : (machine store).step c (.rate i k) = some d) :
    ∃ m s, c.history.merchants_[i]? = some m ∧ c.constructed[k]? = some s ∧
      ((m.getRating.differs s = false ∧ d = c) ∨
        (m.getRating.differs s = true ∧
          d.constructed = c.constructed ∧
          d.history.merchants_ = c.history.merchants_.set i (m.setRating s) ∧
          d.posted = c.posted ++ [(m.setRating s).review_])) := by
  simp only [machine, perform] at hstep
  split_ifs at hstep with hi
  obtain ⟨s, hs, rfl⟩ := Option.map_eq_some_iff.mp hstep
  have hm : c.history.merchants_[i]? = some c.history.merchants_[i] := List.getElem?_eq_getElem hi
  refine ⟨c.history.merchants_[i], s, hm, hs, ?_⟩
  cases hdiffers : c.history.merchants_[i].getRating.differs s with
  | false =>
    refine .inl ⟨rfl, ?_⟩
    simp only [after_ok (HistoryOfVisitedMerchants.rate_same hm hdiffers)]
  | true =>
    refine .inr ⟨rfl, rfl, ?_⟩
    obtain ⟨⟨merchants, t, log⟩, constructed⟩ := c
    cases hpost : (store.postReview (merchants[i].setRating s).review_).run t with
    | ok u t' =>
      have hrate := HistoryOfVisitedMerchants.rate_posted hm hdiffers
        (ICustomerReviewStore.recording_post_ok hpost)
      simp only [posted, after_ok hrate, and_self]
    | error e t' =>
      have hrate := HistoryOfVisitedMerchants.rate_rejected hm hdiffers
        (ICustomerReviewStore.recording_post_error hpost)
      simp only [posted, after_error hrate, and_self]

end

variable {L : Type} [LinearOrder L] [OfNat L 0] [OfNat L 5] {ε σ : Type}

/-- `0 <= value() && value() <= 5` -/
def InRange (s : Stars (Floating L)) : Prop := 0 ≤ s.value ∧ s.value ≤ 5

/-- The ratings cached in entries and those passed to `post_review` are between zero and five. -/
def RatingsInRange (c : Client (Floating L) σ) : Prop :=
  (∀ m ∈ c.history.merchants_, InRange m.getRating) ∧ ∀ r ∈ c.posted, InRange r.rating

/-- Giving a merchant the same rating twice in a row posts at most once. -/
def RatesOnce (store : ICustomerReviewStore (Floating L) ε σ) (start : Client (Floating L) σ)
    (calls : List (Call (Floating L))) (c : Client (Floating L) σ) : Prop :=
  ∀ front i k b, calls = front ++ [.rate i k, .rate i k] →
    (machine store).run start front = some b → c.posted.length ≤ b.posted.length + 1

/-- The rating is a number that is put in a review or given to a merchant, and so is the one of
the review that the store hands to a new entry. -/
def UsesNumbers (store : ICustomerReviewStore (Floating L) ε σ) (c : Client (Floating L) σ) :
    Call (Floating L) → Prop
  | .construct _ => True
  | .post _ _ _ rating => ∀ s, c.constructed[rating]? = some s → s.value ≠ .nan
  | .add id => ∀ r d, (store.getReviewForMerchant id).run c.history.store.1 = .ok (some r) d →
    r.rating.value ≠ .nan
  | .rate _ rating => ∀ s, c.constructed[rating]? = some s → s.value ≠ .nan

lemma inRange_iff {s : Stars (Floating L)} : InRange s ↔ s.value ≠ .nan := by
  have hchecked := Floating.not_outside_iff.mp s.checked
  constructor
  · rintro ⟨hlo, hhi⟩ hnan
    rw [hnan] at hhi
    exact Floating.not_nan_le hhi
  · exact hchecked.resolve_left

/-- A rating differs from itself exactly if it is not a number. -/
lemma differs_self {s : Stars (Floating L)} : s.differs s = false ↔ s.value ≠ .nan := by
  rw [Stars.differs, Bool.not_eq_false', Stars.beq_def]
  exact Floating.beq_self_iff

/-- A rating that is not a number differs from every one. -/
lemma differs_of_nan {s t : Stars (Floating L)} (hs : s.value = .nan) : t.differs s = true := by
  have hbeq : (s == t) = false := by
    rw [Stars.beq_def]
    change (s.value == t.value) = false
    rw [hs, Floating.nan_beq]
  rw [Stars.differs, hbeq, Bool.not_false]

variable {store : ICustomerReviewStore (Floating L) ε σ} {c d start : Client (Floating L) σ}
  {calls : List (Call (Floating L))} {call : Call (Floating L)} {i k : ℕ}

/-- Between two calls nothing is known but the run so far, and that a rating just given is the
cached one. -/
def RateCached (store : ICustomerReviewStore (Floating L) ε σ) (start : Client (Floating L) σ)
    (calls : List (Call (Floating L))) (c : Client (Floating L) σ) : Prop :=
  (machine store).run start calls = some c ∧
  ∀ front i k, calls = front ++ [.rate i k] → ∃ m s, c.history.merchants_[i]? = some m ∧
    c.constructed[k]? = some s ∧ m.getRating.differs s = false

/-- A call posts one review at most. -/
lemma length_posted_le (hstep : (machine store).step c (.rate i k) = some d) :
    d.posted.length ≤ c.posted.length + 1 := by
  obtain ⟨m, s, _, _, ⟨_, rfl⟩ | ⟨_, _, _, hposted⟩⟩ := step_rate hstep
  · exact Nat.le_succ _
  · rw [hposted, List.length_append, List.length_singleton]

/-- A review that is posted decides, if the entries take over nothing but its rating. -/
lemma ratingsInRange_of_posted (hc : RatingsInRange c) {r : Review (Floating L)}
    (hposted : d.posted = c.posted ++ [r])
    (hmerchants : ∀ m ∈ d.history.merchants_, m ∈ c.history.merchants_ ∨ m.getRating = r.rating) :
    RatingsInRange d ↔ InRange r.rating := by
  rw [RatingsInRange, hposted, List.forall_mem_append, List.forall_mem_singleton]
  refine ⟨fun h => h.2.2, fun h => ⟨fun m hm => ?_, hc.2, h⟩⟩
  rcases hmerchants m hm with hold | hnew
  · exact hc.1 m hold
  · rwa [hnew]

/-- The ratings stay in range exactly if the call uses numbers. -/
lemma ratingsInRange_step (hc : RatingsInRange c) (hstep : (machine store).step c call = some d) :
    RatingsInRange d ↔ UsesNumbers store c call := by
  match call with
  | .construct value =>
    have hsame := step_construct hstep
    exact ⟨fun _ => trivial, fun _ => by rwa [RatingsInRange, posted, hsame]⟩
  | .post customer merchant review k =>
    obtain ⟨s, hs, hmerchants, hposted⟩ := step_post hstep
    have hiff : RatingsInRange d ↔ InRange s :=
      ratingsInRange_of_posted hc hposted fun m hm => .inl (hmerchants ▸ hm)
    rw [hiff, inRange_iff, UsesNumbers, hs]
    simp
  | .add id =>
    obtain ⟨hposted, ⟨r, t, hget, hmerchants⟩ | ⟨hget, hmerchants⟩⟩ := step_add hstep
    · have hiff : RatingsInRange d ↔ InRange r.rating := by
        simp only [RatingsInRange, hmerchants, hposted, List.forall_mem_append,
          List.forall_mem_singleton]
        exact ⟨fun h => h.1.2, fun h => ⟨⟨hc.1, h⟩, hc.2⟩⟩
      rw [hiff, inRange_iff, UsesNumbers, hget]
      simp
    · refine ⟨fun _ r t h => absurd h (hget r t), fun _ => ?_⟩
      rwa [RatingsInRange, hmerchants, hposted]
  | .rate i k =>
    obtain ⟨m, s, hm, hs, ⟨hdiffers, rfl⟩ | ⟨hdiffers, _, hmerchants, hposted⟩⟩ := step_rate hstep
    · refine ⟨fun _ s' hs' hnan => ?_, fun _ => hc⟩
      obtain rfl : s = s' := Option.some.inj (hs.symm.trans hs')
      rw [differs_of_nan hnan] at hdiffers
      cases hdiffers
    · have hiff : RatingsInRange d ↔ InRange s := by
        refine ratingsInRange_of_posted hc hposted fun m' hm' => ?_
        rw [hmerchants] at hm'
        exact (List.mem_or_eq_of_mem_set hm').imp_right fun heq => by rw [heq]; rfl
      rw [hiff, inRange_iff, UsesNumbers, hs]
      simp

/-- What is known after a call that uses numbers. -/
lemma rateCached_step (hc : RateCached store start calls c)
    (hstep : (machine store).step c call = some d) (hgood : UsesNumbers store c call) :
    RateCached store start (calls ++ [call]) d := by
  refine ⟨Machine.run_snoc_eq_some.mpr ⟨c, hc.1, hstep⟩, ?_⟩
  intro front i k heq
  obtain ⟨rfl, hcall⟩ := List.append_inj' heq rfl
  obtain rfl : call = .rate i k := by simpa using hcall
  obtain ⟨m, s, hm, hs, ⟨hdiffers, rfl⟩ | ⟨hdiffers, hconstructed, hmerchants, _⟩⟩ :=
    step_rate hstep
  · exact ⟨m, s, hm, hs, hdiffers⟩
  · have hi : i < c.history.merchants_.length := (List.getElem?_eq_some_iff.mp hm).1
    refine ⟨m.setRating s, s, ?_, by rw [hconstructed, hs], ?_⟩
    · rw [hmerchants, List.getElem?_set_self hi]
    · rw [VisitedMerchant.getRating_setRating, differs_self]
      exact hgood s hs

/-- The second of two such calls posts nothing. -/
lemma ratesOnce_step (hc : RateCached store start calls c)
    (hstep : (machine store).step c call = some d) :
    RatesOnce store start (calls ++ [call]) d := by
  intro front i k b heq hb
  rw [List.append_cons front] at heq
  obtain ⟨rfl, hcall⟩ := List.append_inj' heq rfl
  obtain rfl : call = .rate i k := by simpa using hcall
  obtain ⟨m, s, hm, hs, hdiffers⟩ := hc.2 front i k rfl
  -- the first call has posted once at most
  obtain ⟨b', hb', hfirst⟩ := Machine.run_snoc_eq_some.mp hc.1
  obtain rfl : b = b' := Option.some.inj (hb.symm.trans hb')
  have hle := length_posted_le hfirst
  obtain ⟨m', s', hm', hs', ⟨_, rfl⟩ | ⟨hdiffers', _⟩⟩ := step_rate hstep
  · exact hle
  · obtain rfl : m = m' := Option.some.inj (hm.symm.trans hm')
    obtain rfl : s = s' := Option.some.inj (hs.symm.trans hs')
    rw [hdiffers] at hdiffers'
    cases hdiffers'

/-- At every point of a run the ratings are in range, and none is posted twice in a row, exactly
if every call of the run uses numbers. -/
theorem ratings_inRange_iff (store : ICustomerReviewStore (Floating L) ε σ) (s : σ)
    (hrun : (machine store).run (ofStore s) calls = some d) :
    (machine store).Always (fun calls c => RatingsInRange c ∧ RatesOnce store (ofStore s) calls c)
      (ofStore s) calls ↔
    (machine store).Meets (UsesNumbers store) (ofStore s) calls := by
  refine Machine.always_iff_meets (Q := RateCached store (ofStore s)) ?_ ?_ ?_ ?_ hrun
  · refine ⟨⟨nofun, nofun⟩, ?_⟩
    intro front i k b heq
    simp at heq
  · refine ⟨rfl, ?_⟩
    intro front i k heq
    simp at heq
  · intro bs c call d _ hcached hc hstep
    rw [← ratingsInRange_step hc.1 hstep]
    exact ⟨fun h => h.1, fun h => ⟨h, ratesOnce_step hcached hstep⟩⟩
  · intro bs c call d _ hcached _ hstep hgood
    exact rateCached_step hcached hstep hgood

/-- Four stars for a merchant, on the fake store of its customer. -/
theorem ratings_inRange_iff_four_stars :
    (machine (FakeCustomerReviewStore.store (F := Floating ℤ) 7)).Always
      (fun calls c => RatingsInRange c ∧
        RatesOnce (FakeCustomerReviewStore.store 7) (ofStore (.ofCustomer 7)) calls c)
      (ofStore (.ofCustomer 7)) [.construct 4, .post 7 3 "Good" 0, .add 3, .rate 0 0] := by
  refine (ratings_inRange_iff (FakeCustomerReviewStore.store 7) (.ofCustomer 7) rfl).mpr ?_
  refine Machine.meets_cons.mpr ⟨trivial, ?_⟩
  rintro _ ⟨rfl⟩
  refine Machine.meets_cons.mpr ⟨?_, ?_⟩
  · rintro _ ⟨rfl⟩
    exact nofun
  rintro _ ⟨rfl⟩
  refine Machine.meets_cons.mpr ⟨?_, ?_⟩
  · rintro _ _ ⟨rfl⟩
    exact nofun
  rintro _ ⟨rfl⟩
  refine Machine.meets_cons.mpr ⟨?_, fun t _ => Machine.meets_nil⟩
  rintro _ ⟨rfl⟩
  exact nofun

/-- A rating that is not a number is constructed, and posted as such. -/
theorem nan_is_posted : ¬ ∀ (s : FakeCustomerReviewStore (Floating ℤ) 7)
    (calls : List (Call (Floating ℤ))) (d : Client (Floating ℤ) _),
    (machine (FakeCustomerReviewStore.store 7)).run (ofStore s) calls = some d →
    (machine (FakeCustomerReviewStore.store 7)).Always (fun calls c => RatingsInRange c ∧
      RatesOnce (FakeCustomerReviewStore.store 7) (ofStore s) calls c) (ofStore s) calls := by
  intro hall
  have halways := hall (.ofCustomer 7) [.construct .nan, .post 7 3 "Good" 0] _ rfl
  have hposted := (halways _ _ List.prefix_rfl rfl).1.2
  have hrange := hposted _ (List.mem_singleton_self _)
  exact absurd rfl (inRange_iff.mp hrange)

end Client

end Reviews
