import CppArchitecture.Core.Method
import Mathlib.Data.Finmap
import Mathlib.Logic.Function.Basic

/-!
# Reviews and review stores

Ratings, reviews, and the interface `i_customer_review_store` through which they are read and
posted. A store is known by the two calls of its interface; what is assumed of it is stated by
the laws of `ReviewMap`, which the fake store of the tests satisfies.
-/

namespace Reviews

open Core

/-- The exceptions and contract failures of the mobile application. -/
inductive Exception where
  | invalidArgument (what : String)
  | logicError (what : String)
  | contractViolation (what : String)
  deriving DecidableEq, Repr

/-- `review::customer_id_t` -/
abbrev CustomerId := UInt64

/-- `review::merchant_id_t` -/
abbrev MerchantId := UInt64

section

variable (F : Type) [LT F] [OfNat F 0] [OfNat F 5]

/-- A rating, which only passes the range check of its constructor. -/
@[ext] structure Stars where
  stars_ : F
  checked : ¬ (stars_ > 5 ∨ stars_ < 0)

/-- `struct review` -/
@[ext] structure Review where
  customer : CustomerId
  merchant : MerchantId
  review : String
  rating : Stars F

/-- The calls of `i_customer_review_store`, on a store object of type `σ`. -/
structure ICustomerReviewStore (ε σ : Type) where
  getReviewForMerchant : MerchantId → EStateM ε σ (Option (Review F))
  postReview : Review F → EStateM ε σ PUnit

end

variable {F : Type} [LT F] [OfNat F 0] [OfNat F 5]

namespace Stars

/-- The constructor of `stars`, which throws from `check_range`. -/
def ofFloat [DecidableLT F] (stars : F) : Except Exception (Stars F) :=
  if h : stars > 5 ∨ stars < 0 then
    .error (.invalidArgument "Only rates between 0 and 5 stars are allowed")
  else .ok ⟨stars, h⟩

def value (s : Stars F) : F := s.stars_

/-- The best rating, with whole numbers for the floats. -/
def five : Stars ℕ := ⟨5, by decide⟩

variable [BEq F]

/-- `stars::operator==` -/
instance : BEq (Stars F) := ⟨fun lhs rhs => lhs.stars_ == rhs.stars_⟩

/-- `stars::operator!=`, which compares the other way around. -/
def differs (lhs rhs : Stars F) : Bool := !(rhs == lhs)

lemma beq_def (s t : Stars F) : (s == t) = (s.stars_ == t.stars_) := rfl

instance [LawfulBEq F] : LawfulBEq (Stars F) where
  rfl {s} := by simp [beq_def]
  eq_of_beq {s t} h := by
    rw [beq_def] at h
    exact Stars.ext (eq_of_beq h)

@[simp] lemma differs_iff [LawfulBEq F] (s t : Stars F) : s.differs t = true ↔ s ≠ t := by
  rw [differs, Bool.not_eq_true', beq_eq_false_iff_ne, ne_comm]

lemma differs_eq_false_iff [LawfulBEq F] {s t : Stars F} : s.differs t = false ↔ s = t := by
  rw [← Bool.not_eq_true, differs_iff, not_not]

end Stars

namespace ICustomerReviewStore

variable {ε σ : Type}

/-- The store throws from no call of `post_review`. -/
def AcceptsEveryPost (store : ICustomerReviewStore F ε σ) : Prop :=
  ∀ r s, ¬ Throws (store.postReview r) s

/-- A store that also writes down every review passed to `post_review`. -/
def recording (store : ICustomerReviewStore F ε σ) :
    ICustomerReviewStore F ε (σ × List (Review F)) where
  getReviewForMerchant id := zoom Prod.fst (fun p s => (s, p.2)) (store.getReviewForMerchant id)
  postReview r := do
    modify fun p => (p.1, p.2 ++ [r])
    zoom Prod.fst (fun p s => (s, p.2)) (store.postReview r)

variable {store : ICustomerReviewStore F ε σ} {r : Review F} {c d : σ} {log : List (Review F)}

lemma recording_post_ok {u : PUnit}
    (hpost : (store.postReview r).run c = .ok u d) :
    (store.recording.postReview r).run (c, log) = .ok u (d, log ++ [r]) := by
  simp only [recording, EStateM.run_bind, EStateM.run_modify]
  exact run_zoom_ok hpost

lemma recording_post_error {e : ε}
    (hpost : (store.postReview r).run c = .error e d) :
    (store.recording.postReview r).run (c, log) = .error e (d, log ++ [r]) := by
  simp only [recording, EStateM.run_bind, EStateM.run_modify]
  exact run_zoom_error hpost

end ICustomerReviewStore

/-- The store is a map from merchants to their reviews, read by `lookup`: an accepted post sets
the review of its merchant, a throwing one changes no review. -/
structure ReviewMap {ε σ : Type} (store : ICustomerReviewStore F ε σ) where
  lookup : σ → MerchantId → Option (Review F)
  get_run : ∀ id s, (store.getReviewForMerchant id).run s = .ok (lookup s id) s
  keyed : ∀ s id r, lookup s id = some r → r.merchant = id
  post_ok : ∀ r s u t, (store.postReview r).run s = .ok u t →
    lookup t = Function.update (lookup s) r.merchant (some r)
  post_error : ∀ r s e t, (store.postReview r).run s = .error e t → lookup t = lookup s

/-- The store keeps the reviews of one customer and accepts every post of that customer. -/
structure CustomerReviewMap {ε σ : Type} (store : ICustomerReviewStore F ε σ)
    (customer : CustomerId) extends ReviewMap store where
  owned : ∀ s id r, lookup s id = some r → r.customer = customer
  accepts : ∀ r s, r.customer = customer → ¬ Throws (store.postReview r) s

/-! ### The fake store of the tests -/

/-- `fake_customer_review_store`: reviews of one customer, each under its merchant. The customer
is set by the constructor and never changes. -/
structure FakeCustomerReviewStore (F : Type) [LT F] [OfNat F 0] [OfNat F 5]
    (customer_id_ : CustomerId) where
  reviews_ : Finmap fun _ : MerchantId => Review F
  keyed : ∀ id r, reviews_.lookup id = some r → r.merchant = id ∧ r.customer = customer_id_

namespace FakeCustomerReviewStore

variable {customer_id_ : CustomerId}

/-- The constructor. -/
def ofCustomer (customer_id_ : CustomerId) : FakeCustomerReviewStore F customer_id_ where
  reviews_ := ∅
  keyed id r h := by simp at h

/-- `reviews_[r.merchant] = std::move(r)`, for a review of the store's customer. -/
def insert (s : FakeCustomerReviewStore F customer_id_) (r : Review F)
    (h : r.customer = customer_id_) : FakeCustomerReviewStore F customer_id_ where
  reviews_ := s.reviews_.insert r.merchant r
  keyed id q hq := by
    by_cases hid : id = r.merchant
    · subst hid
      rw [Finmap.lookup_insert] at hq
      cases hq
      exact ⟨rfl, h⟩
    · rw [Finmap.lookup_insert_of_ne _ hid] at hq
      exact s.keyed id q hq

def postReview (r : Review F) : EStateM Exception (FakeCustomerReviewStore F customer_id_) PUnit :=
  if h : r.customer = customer_id_ then modify fun s => s.insert r h
  else throw (.invalidArgument "Trying to post a review under a different customer ID")

/-- The interface the fake store implements. -/
def store (customer_id_ : CustomerId) :
    ICustomerReviewStore F Exception (FakeCustomerReviewStore F customer_id_) where
  getReviewForMerchant id := do return (← get).reviews_.lookup id
  postReview := postReview

variable {s : FakeCustomerReviewStore F customer_id_} {r : Review F}

lemma postReview_of_eq (h : r.customer = customer_id_) :
    ((store customer_id_).postReview r).run s = .ok ⟨⟩ (s.insert r h) := by
  simp [store, postReview, h]

lemma postReview_of_ne (h : r.customer ≠ customer_id_) :
    ((store customer_id_).postReview r).run s =
      .error (.invalidArgument "Trying to post a review under a different customer ID") s := by
  simp [store, postReview, h]

lemma lookup_insert (h : r.customer = customer_id_) :
    (fun id => (s.insert r h).reviews_.lookup id) =
      Function.update (fun id => s.reviews_.lookup id) r.merchant (some r) := by
  funext id
  by_cases hid : id = r.merchant
  · subst hid
    simp [insert, Finmap.lookup_insert]
  · simp [insert, Finmap.lookup_insert_of_ne _ hid, Function.update_of_ne hid]

/-- The fake store is a map from merchants to the reviews of its customer. -/
def reviewMap (customer_id_ : CustomerId) :
    CustomerReviewMap (store (F := F) customer_id_) customer_id_ where
  lookup s id := s.reviews_.lookup id
  get_run id s := rfl
  keyed s id r h := (s.keyed id r h).1
  owned s id r h := (s.keyed id r h).2
  post_ok r s u t h := by
    by_cases hr : r.customer = customer_id_
    · rw [postReview_of_eq hr] at h
      cases h
      exact lookup_insert hr
    · rw [postReview_of_ne hr] at h
      cases h
  post_error r s e t h := by
    by_cases hr : r.customer = customer_id_
    · rw [postReview_of_eq hr] at h
      cases h
    · rw [postReview_of_ne hr] at h
      cases h
      rfl
  accepts r s hr := not_throws_of_ok (postReview_of_eq hr)

end FakeCustomerReviewStore

end Reviews
