import CppArchitecture.Reviews.History

/-!
# The history and the store

The store is up to date when it holds, for every merchant, the rating last given on an entry of
that merchant, and every entry caches the rating of its merchant. Entries of one merchant have
caches of their own, so a change of the rating through one of them leaves the others behind:
the two stay consistent exactly as long as only ratings of undisputed entries are changed.
-/

namespace Reviews

open Core

variable {F : Type} [LT F] [OfNat F 0] [OfNat F 5] {ε σ : Type}

/-- What the client of a history has asked for: the merchants of the entries, in order, and the
last rating given on an entry of each merchant. -/
structure Requests (F : Type) [LT F] [OfNat F 0] [OfNat F 5] where
  merchants : List MerchantId := []
  last : MerchantId → Option (Stars F) := fun _ => none

def Requests.note (q : Requests F) : Op F → Requests F
  | .add id => { q with merchants := q.merchants ++ [id] }
  | .rate i s =>
    match q.merchants[i]? with
    | some id => { q with last := Function.update q.last id (some s) }
    | none => q

def requests (ops : List (Op F)) : Requests F := ops.foldl Requests.note {}

lemma requests_snoc (ops : List (Op F)) (op : Op F) :
    requests (ops ++ [op]) = (requests ops).note op := by
  simp [requests]

namespace HistoryOfVisitedMerchants

variable {store : ICustomerReviewStore F ε σ}

/-- Entries are added for merchants with a review, and rated at indices returned by `add`. -/
def Valid (K : ReviewMap store) (c : σ) (ops : List (Op F)) : Prop :=
  ∀ bs op, bs ++ [op] <+: ops →
    match op with
    | .add id => (K.lookup c id).isSome
    | .rate i _ => i < (requests bs).merchants.length

/-- The store holds the last ratings and the entries cache what the store holds; `c` is the
store before the run. -/
def Consistent (K : ReviewMap store) (c : σ) (ops : List (Op F))
    (h : HistoryOfVisitedMerchants F σ) : Prop :=
  (∀ id, (K.lookup h.store id).map (·.rating) =
    (K.lookup c id).map fun r => ((requests ops).last id).getD r.rating) ∧
  ∀ (i : ℕ) (m : VisitedMerchant F), h.merchants_[i]? = some m →
    (K.lookup h.store m.review_.merchant).map (·.rating) = some m.getRating

/-- A rating repeats the cached one, or no other entry is of the same merchant. -/
def Undisputed (h : HistoryOfVisitedMerchants F σ) : Op F → Prop
  | .add _ => True
  | .rate i s => ∀ m, h.merchants_[i]? = some m → m.getRating = s ∨
      ∀ j n, h.merchants_[j]? = some n → n.review_.merchant = m.review_.merchant → j = i

/-- The entries are those asked for. -/
def EntriesOf (ops : List (Op F)) (h : HistoryOfVisitedMerchants F σ) : Prop :=
  h.merchants_.map (·.review_.merchant) = (requests ops).merchants

lemma valid_nil {K : ReviewMap store} {c : σ} : Valid K c [] := by
  intro bs op hpre
  simpa using hpre.length_le

lemma valid_snoc {K : ReviewMap store} {c : σ} {ops : List (Op F)} {op : Op F} :
    Valid K c (ops ++ [op]) ↔ Valid K c ops ∧
      match op with
      | .add id => (K.lookup c id).isSome
      | .rate i _ => i < (requests ops).merchants.length := by
  constructor
  · intro h
    exact ⟨fun bs op' hpre => h bs op' (hpre.trans (List.prefix_append ops [op])),
      h ops op List.prefix_rfl⟩
  · rintro ⟨h, hop⟩ bs op' hpre
    rcases List.prefix_concat_iff.mp hpre with heq | hpre
    · obtain ⟨rfl, hops⟩ := List.append_inj' heq rfl
      cases hops
      exact hop
    · exact h bs op' hpre

/-- The constructor of an entry reads the review of its merchant and changes nothing. -/
lemma ofStore_eq_ok_iff (K : ReviewMap store) {id : MerchantId} {c d : σ}
    {m : VisitedMerchant F} : (VisitedMerchant.ofStore store id).run c = .ok m d ↔
      K.lookup c id = some m.review_ ∧ d = c := by
  have hget := K.get_run id c
  cases hr : K.lookup c id with
  | none =>
    rw [hr] at hget
    simp [VisitedMerchant.ofStore, EStateM.run_adaptExcept, hget]
  | some r =>
    rw [hr] at hget
    rw [VisitedMerchant.ofStore_of_some hget]
    constructor
    · rintro ⟨rfl, rfl⟩
      exact ⟨rfl, rfl⟩
    · rintro ⟨hm, rfl⟩
      cases hm
      rfl

variable {K : ReviewMap store} {h h' : HistoryOfVisitedMerchants F σ} {c : σ}
  {ops : List (Op F)} {op : Op F} {i : ℕ} {s : Stars F} {m : VisitedMerchant F}

lemma EntriesOf.getElem? (he : EntriesOf ops h) (hm : h.merchants_[i]? = some m) :
    (requests ops).merchants[i]? = some m.review_.merchant := by
  rw [← he, List.getElem?_map, hm]
  rfl

lemma EntriesOf.requests_rate (he : EntriesOf ops h) (hm : h.merchants_[i]? = some m) :
    requests (ops ++ [.rate i s]) = { requests ops with
      last := Function.update (requests ops).last m.review_.merchant (some s) } := by
  rw [requests_snoc]
  simp only [Requests.note, he.getElem? hm]

lemma map_merchant_set (hm : h.merchants_[i]? = some m) :
    (h.merchants_.set i (m.setRating s)).map (·.review_.merchant) =
      h.merchants_.map (·.review_.merchant) := by
  obtain ⟨hi, rfl⟩ := List.getElem?_eq_some_iff.mp hm
  rw [List.map_set, VisitedMerchant.merchant_setRating]
  exact List.ext_getElem (by simp) fun j hj _ => by
    rw [List.getElem_set]
    split_ifs with hij
    · subst hij
      simp
    · rfl

/-- The merchant of an entry had a review from the start. -/
lemma Consistent.lookup_isSome (hc : Consistent K c ops h) (hm : h.merchants_[i]? = some m) :
    (K.lookup c m.review_.merchant).isSome := by
  have hid := hc.1 m.review_.merchant
  rw [hc.2 i m hm] at hid
  cases hr : K.lookup c m.review_.merchant with
  | none => simp [hr] at hid
  | some r => rfl

/-- A rating that repeats the cached one keeps the two consistent. -/
lemma Consistent.step_same (hc : Consistent K c ops h) (he : EntriesOf ops h)
    (hm : h.merchants_[i]? = some m) : Consistent K c (ops ++ [.rate i m.getRating]) h := by
  refine ⟨fun id => ?_, hc.2⟩
  rw [he.requests_rate hm]
  by_cases hid : id = m.review_.merchant
  · subst hid
    rw [hc.2 i m hm]
    obtain ⟨r, hr⟩ := Option.isSome_iff_exists.mp (hc.lookup_isSome hm)
    simp [hr]
  · simp only [Function.update_of_ne hid]
    exact hc.1 id

/-- A posted change keeps the two consistent exactly if no other entry is of the merchant. -/
lemma Consistent.posted_iff (hc : Consistent K c ops h) (he : EntriesOf ops h)
    (hm : h.merchants_[i]? = some m) (hs : m.getRating ≠ s) {u : PUnit} {d : σ}
    (hpost : (store.postReview (m.setRating s).review_).run h.store = .ok u d) :
    Consistent K c (ops ++ [.rate i s]) ⟨h.merchants_.set i (m.setRating s), d⟩ ↔
      ∀ j n, h.merchants_[j]? = some n → n.review_.merchant = m.review_.merchant → j = i := by
  have hlookup := K.post_ok _ _ _ _ hpost
  have hi : i < h.merchants_.length := (List.getElem?_eq_some_iff.mp hm).1
  constructor
  · intro hc' j n hn hnm
    by_contra hji
    have hn' := hc'.2 j n (by rwa [List.getElem?_set_ne (Ne.symm hji)])
    rw [hlookup, hnm, VisitedMerchant.merchant_setRating, Function.update_self] at hn'
    -- the other entry still caches the old rating
    have hold : n.getRating = m.getRating := by
      have hnold := hc.2 j n hn
      rw [hnm, hc.2 i m hm] at hnold
      exact (Option.some.inj hnold).symm
    exact hs (hold.symm.trans (Option.some.inj hn').symm)
  · intro hunique
    refine ⟨fun id => ?_, fun j n hn => ?_⟩
    · rw [he.requests_rate hm, hlookup]
      by_cases hid : id = m.review_.merchant
      · subst hid
        obtain ⟨r, hr⟩ := Option.isSome_iff_exists.mp (hc.lookup_isSome hm)
        simp [hr, VisitedMerchant.rating_setRating]
      · simp only [VisitedMerchant.merchant_setRating, Function.update_of_ne hid]
        exact hc.1 id
    · rw [hlookup, VisitedMerchant.merchant_setRating]
      rcases entry_of_set hi hn with ⟨rfl, rfl⟩ | ⟨hji, hn⟩
      · simp
      · have hne : n.review_.merchant ≠ m.review_.merchant := fun hnm =>
          hji (hunique j n hn hnm)
        rw [Function.update_of_ne hne]
        exact hc.2 j n hn

variable [BEq F]

/-- The entries remain those asked for. -/
lemma EntriesOf.step (K : ReviewMap store) (he : EntriesOf ops h)
    (hstep : (machine store).step h op = some h') : EntriesOf (ops ++ [op]) h' := by
  match op with
  | .add id =>
    obtain ⟨m, d, hm, rfl⟩ := step_add_iff.mp hstep
    obtain ⟨hr, rfl⟩ := (ofStore_eq_ok_iff K).mp hm
    simp only [EntriesOf, requests_snoc, Requests.note, List.map_append, List.map_singleton,
      K.keyed _ _ _ hr]
    rw [← he]
  | .rate i s =>
    obtain ⟨m, hm, ⟨_, rfl⟩ | ⟨_, u, d, _, rfl⟩⟩ := step_rate_iff.mp hstep
    · simp only [EntriesOf, he.requests_rate hm]
      exact he
    · simp only [EntriesOf, he.requests_rate hm]
      rw [← he, map_merchant_set hm]

/-- The constructor changes no review; the new entry caches the rating the store holds. -/
lemma Consistent.step_add (hc : Consistent K c ops h) {id : MerchantId}
    (hstep : (machine store).step h (.add id) = some h') :
    Consistent K c (ops ++ [.add id]) h' := by
  obtain ⟨m, d, hm, rfl⟩ := step_add_iff.mp hstep
  obtain ⟨hr, rfl⟩ := (ofStore_eq_ok_iff K).mp hm
  refine ⟨fun id' => ?_, fun i n hn => ?_⟩
  · rw [requests_snoc]
    exact hc.1 id'
  · rcases lt_or_ge i h.merchants_.length with hi | hi
    · rw [List.getElem?_append_left hi] at hn
      exact hc.2 i n hn
    · rw [List.getElem?_append_right hi] at hn
      obtain rfl := List.mem_singleton.mp (List.mem_of_getElem? hn)
      rw [K.keyed _ _ _ hr, hr]
      rfl

/-! ### Valid calls return -/

/-- What lets every valid call return: the entries and the reviews in the store are of the
customer, and the store has reviews of the merchants it had reviews of at first. -/
structure Sound {customer : CustomerId} (K : CustomerReviewMap store customer) (c : σ)
    (h : HistoryOfVisitedMerchants F σ) : Prop where
  customers : ∀ m ∈ h.merchants_, m.review_.customer = customer
  reviewed : ∀ m ∈ h.merchants_, (K.lookup c m.review_.merchant).isSome
  lookups : ∀ id, (K.lookup h.store id).isSome = (K.lookup c id).isSome

variable {customer : CustomerId} {K : CustomerReviewMap store customer}

lemma Sound.step (hsound : Sound K c h) (hstep : (machine store).step h op = some h') :
    Sound K c h' := by
  match op with
  | .add id =>
    obtain ⟨m, d, hm, rfl⟩ := step_add_iff.mp hstep
    obtain ⟨hr, rfl⟩ := (ofStore_eq_ok_iff K.toReviewMap).mp hm
    refine ⟨fun n hn => ?_, fun n hn => ?_, hsound.lookups⟩
    · rcases List.mem_append.mp hn with hn | hn
      · exact hsound.customers n hn
      · obtain rfl := List.mem_singleton.mp hn
        exact K.owned _ _ _ hr
    · rcases List.mem_append.mp hn with hn | hn
      · exact hsound.reviewed n hn
      · obtain rfl := List.mem_singleton.mp hn
        rw [← hsound.lookups, K.keyed _ _ _ hr, hr]
        rfl
  | .rate i s =>
    obtain ⟨m, hm, ⟨_, rfl⟩ | ⟨_, u, d, hpost, rfl⟩⟩ := step_rate_iff.mp hstep
    · exact hsound
    have hmem := List.mem_of_getElem? hm
    have hlookup := K.post_ok _ _ _ _ hpost
    refine ⟨fun n hn => ?_, fun n hn => ?_, fun id => ?_⟩
    · rcases List.mem_or_eq_of_mem_set hn with hn | rfl
      · exact hsound.customers n hn
      · exact hsound.customers m hmem
    · rcases List.mem_or_eq_of_mem_set hn with hn | rfl
      · exact hsound.reviewed n hn
      · exact hsound.reviewed m hmem
    · rw [hlookup]
      by_cases hid : id = m.review_.merchant
      · subst hid
        rw [hsound.reviewed m hmem]
        simp
      · rw [VisitedMerchant.merchant_setRating, Function.update_of_ne hid, hsound.lookups]

/-- All calls of a valid sequence return. -/
lemma exists_run (hops : Valid K.toReviewMap c ops) :
    ∃ h, (machine store).run ⟨[], c⟩ ops = some h ∧ EntriesOf ops h ∧ Sound K c h := by
  induction ops using List.reverseRecOn with
  | nil => exact ⟨_, rfl, rfl, by simp, by simp, fun _ => rfl⟩
  | append_singleton ops op ih =>
    obtain ⟨h, hrun, he, hsound⟩ := ih fun bs op' hpre =>
      hops bs op' (hpre.trans (List.prefix_append ops [op]))
    have henabled : ((machine store).step h op).isSome := by
      match op with
      | .add id =>
        have hid : (K.lookup c id).isSome := hops ops (.add id) List.prefix_rfl
        rw [← hsound.lookups] at hid
        obtain ⟨r, hr⟩ := Option.isSome_iff_exists.mp hid
        rw [Option.isSome_iff_exists]
        exact ⟨_, step_add_iff.mpr ⟨⟨r⟩, _, (ofStore_eq_ok_iff K.toReviewMap).mpr ⟨hr, rfl⟩, rfl⟩⟩
      | .rate i s =>
        have hi : i < (requests ops).merchants.length := hops ops (.rate i s) List.prefix_rfl
        rw [← he, List.length_map] at hi
        refine step_rate_isSome (List.getElem?_eq_getElem hi) (K.accepts _ _ ?_)
        exact hsound.customers (h.merchants_[i]) (List.getElem_mem hi)
    obtain ⟨h', hstep⟩ := Option.isSome_iff_exists.mp henabled
    exact ⟨h', Machine.run_snoc_eq_some.mpr ⟨h, hrun, hstep⟩, he.step K.toReviewMap hstep,
      hsound.step hstep⟩

variable [LawfulBEq F]

/-- A step from a consistent history keeps it consistent exactly if it is undisputed. -/
lemma Consistent.step_iff {K : ReviewMap store} (hc : Consistent K c ops h) (he : EntriesOf ops h)
    (hstep : (machine store).step h op = some h') :
    Consistent K c (ops ++ [op]) h' ↔ Undisputed h op := by
  match op with
  | .add id => exact iff_of_true (hc.step_add hstep) trivial
  | .rate i s =>
    obtain ⟨m, hm, ⟨hs, rfl⟩ | ⟨hs, u, d, hpost, rfl⟩⟩ := step_rate_iff.mp hstep
    · obtain rfl : m.getRating = s := Stars.differs_eq_false_iff.mp hs
      refine iff_of_true (hc.step_same he hm) fun n hn => ?_
      obtain rfl : m = n := Option.some.inj (hm.symm.trans hn)
      exact .inl rfl
    · have hne := (Stars.differs_iff _ _).mp hs
      rw [hc.posted_iff he hm hne hpost]
      constructor
      · intro hunique n hn
        obtain rfl : m = n := Option.some.inj (hm.symm.trans hn)
        exact .inr hunique
      · intro hgood
        exact (hgood m hm).resolve_left hne

/-- The store and the entries are up to date at every point of a valid sequence of calls exactly
if none of its rates changes a rating that another entry caches. -/
theorem consistent_iff_undisputed (hops : Valid K.toReviewMap c ops) :
    (∃ h, (machine store).run ⟨[], c⟩ ops = some h) ∧
    ((machine store).Always (Consistent K.toReviewMap c) ⟨[], c⟩ ops ↔
      (machine store).Meets Undisputed ⟨[], c⟩ ops) := by
  obtain ⟨h, hrun, _⟩ := exists_run hops
  refine ⟨⟨h, hrun⟩, Machine.always_iff_meets (Q := EntriesOf) ?_ rfl ?_ ?_ hrun⟩
  · refine ⟨fun id => ?_, by simp⟩
    simp [requests]
  · intro bs k op k' _ he hc hstep
    exact hc.step_iff he hstep
  · intro bs k op k' _ he _ hstep _
    exact he.step K.toReviewMap hstep

/-! ### The store of the tests -/

/-- The store with the review the tests post first. -/
def ratedStore : FakeCustomerReviewStore ℕ 7777 :=
  (FakeCustomerReviewStore.ofCustomer 7777).insert
    ⟨7777, 1234, "Very nice!", .five⟩ rfl

/-- Two entries of one merchant, the first of which is rated. -/
def ratePair (s : Stars ℕ) : List (Op ℕ) := [.add 1234, .add 1234, .rate 0 s]

lemma valid_ratePair (s : Stars ℕ) :
    Valid (FakeCustomerReviewStore.reviewMap 7777).toReviewMap ratedStore (ratePair s) :=
  valid_snoc.mpr ⟨valid_snoc.mpr ⟨valid_snoc.mpr ⟨valid_nil, rfl⟩, rfl⟩, Nat.zero_lt_two⟩

/-- The rate is disputed unless it gives the rating the entry caches already. -/
lemma meets_ratePair_iff {s : Stars ℕ} :
    (machine (FakeCustomerReviewStore.store 7777)).Meets Undisputed ⟨[], ratedStore⟩
      (ratePair s) ↔ Stars.five = s := by
  let m : VisitedMerchant ℕ := ⟨⟨7777, 1234, "Very nice!", .five⟩⟩
  constructor
  · intro h
    have hrate := h [.add 1234, .add 1234] (.rate 0 s) ⟨[m, m], ratedStore⟩ ⟨[], rfl⟩ rfl m rfl
    -- the other entry is of the same merchant
    exact hrate.resolve_right fun hunique => absurd (hunique 1 m rfl rfl) one_ne_zero
  · intro hs
    refine Machine.meets_cons.mpr ⟨trivial, fun t ht => ?_⟩
    refine Machine.meets_cons.mpr ⟨trivial, fun u hu => ?_⟩
    cases ht
    cases hu
    refine Machine.meets_cons.mpr ⟨fun n hn => ?_, fun v _ => Machine.meets_nil⟩
    cases hn
    exact .inl hs

/-- Given the rating it caches again, the first entry leaves the run consistent; given another
one, it does not. -/
theorem consistent_iff_undisputed_pair :
    (machine (FakeCustomerReviewStore.store 7777)).Always
        (Consistent (FakeCustomerReviewStore.reviewMap 7777).toReviewMap ratedStore)
        ⟨[], ratedStore⟩ (ratePair .five) ∧
      ¬ (machine (FakeCustomerReviewStore.store 7777)).Always
        (Consistent (FakeCustomerReviewStore.reviewMap 7777).toReviewMap ratedStore)
        ⟨[], ratedStore⟩ (ratePair ⟨4, by decide⟩) := by
  constructor
  · exact (consistent_iff_undisputed (valid_ratePair _)).2.mpr (meets_ratePair_iff.mpr rfl)
  · intro h
    have hs := meets_ratePair_iff.mp ((consistent_iff_undisputed (valid_ratePair _)).2.mp h)
    exact absurd (congrArg Stars.value hs) (by decide)

/-- Two entries of one merchant: the second does not notice the change made through the first,
takes the rating it still caches for the current one, and skips the post. -/
theorem shared_merchant_inconsistent :
    ¬ ∀ (ops : List (Op ℕ)) (h : HistoryOfVisitedMerchants ℕ (FakeCustomerReviewStore ℕ 7777)),
      Valid (FakeCustomerReviewStore.reviewMap 7777).toReviewMap ratedStore ops →
      (machine (FakeCustomerReviewStore.store 7777)).run ⟨[], ratedStore⟩ ops = some h →
      Consistent (FakeCustomerReviewStore.reviewMap 7777).toReviewMap ratedStore ops h := by
  intro hall
  have hvalid : Valid (FakeCustomerReviewStore.reviewMap 7777).toReviewMap ratedStore
      (ratePair ⟨3, by decide⟩ ++ [.rate 1 ⟨5, by decide⟩]) :=
    valid_snoc.mpr ⟨valid_ratePair _, Nat.one_lt_two⟩
  have hstore := (hall _ _ hvalid rfl).1 1234
  exact absurd (congrArg (Option.map Stars.value) hstore) (by decide)

end HistoryOfVisitedMerchants

end Reviews
