import CppArchitecture.Redis.RoundTrip

/-!
# Replies in a row

A client that has sent several commands reads as many replies from the stream. It reads those that
have been put there if all of them are sound, and not otherwise.
-/

namespace Redis

open Core Serialization Deserialization

variable {L : Limits} {r : List UInt8} {s t : IStream UInt8}

/-- The value that an item is read as. -/
def Value.ofItem (x : Deserialization.Item) : Value := ⟨x.marker, x⟩

/-- The value of a reply that has been read. -/
def reply (x : Serialization.Item) : Value := .ofItem (denote x)

/-- The marker of a value tells which alternative the value is. -/
lemma value_eq (L : Limits) :
    value L = item L (L.frames + 1) >>= fun x => pure (Value.ofItem x) := by
  rw [value, item, bind_assoc]
  congr 1
  funext m
  cases m <;> simp [construct, Value.ofItem, Deserialization.Item.marker]

lemma ofItem_injective : Function.Injective Value.ofItem := by
  intro x y h
  exact congrArg Value.item h

lemma readsBack_value (x : Serialization.Item) :
    ReadsBack (Sound L x (L.frames + 1)) (value L) (put x) (reply x) := by
  rw [value_eq]
  exact (readsBack_put x (L.frames + 1)).map ofItem_injective

lemma value_crlf : ∃ e t, (value L).run ⟨crlf ++ r, true⟩ = .error e t := by
  obtain ⟨e, t, hmark⟩ := getMark_cr (r := r)
  exact ⟨e, t, run_bind_of_error hmark⟩

lemma readsBack_values (xs : List Serialization.Item) :
    ReadsBack (SoundAll L xs (L.frames + 1)) (items (value L) xs.length) (putAll xs)
      (xs.map reply) := by
  induction xs with
  | nil => exact fun r => ⟨fun _ => rfl, fun h => absurd trivial h⟩
  | cons x xs ih =>
    refine (readsBack_value x).cons ih (fun r => value_crlf) fun hlength => ?_
    rw [List.eq_nil_of_length_eq_zero hlength, putAll]

/-- A client reads the replies to its commands as they have been put into the stream, and leaves
what comes after them, exactly if all of them are sound. -/
theorem values_run_iff (L : Limits) (replies : List Serialization.Item) (r : List UInt8) :
    (items (value L) replies.length).run ⟨putAll replies ++ r, true⟩ =
      .ok (replies.map reply) ⟨r, true⟩ ↔ SoundAll L replies (L.frames + 1) := by
  refine ⟨fun hrun => ?_, (readsBack_values replies r).1⟩
  by_contra hsound
  -- a line break would be left before `r`
  have hleft := (readsBack_values replies r).2 hsound _ hrun
  have hlength := congrArg (fun s : IStream UInt8 => s.rest.length) hleft
  simp [crlf] at hlength
  omega

example : put (command (text "get") [text "my_key"]) =
    text "*2\r\n$3\r\nget\r\n$6\r\nmy_key\r\n" := by decide

/-! ### Conversions -/

/-- The marker that a value has read is the one of its alternative. -/
lemma marker_of_values {count : ℕ} {vs : List Value}
    (hrun : (items (value L) count).run s = .ok vs t) (v : Value) (hv : v ∈ vs) :
    ∃ x, v = .ofItem x := by
  induction count generalizing s vs with
  | zero =>
    cases hrun
    cases hv
  | succ count ih =>
    obtain ⟨w, u, hw, hrun⟩ := run_bind_eq_ok.mp hrun
    obtain ⟨ws, u', hws, hpure⟩ := run_bind_eq_ok.mp hrun
    cases hpure
    rcases List.mem_cons.mp hv with rfl | hv
    · rw [value_eq] at hw
      obtain ⟨x, u'', _, hpure⟩ := run_bind_eq_ok.mp hw
      cases hpure
      exact ⟨x, rfl⟩
    · exact ih hws hv

/-- Whatever the stream brings: a value that has been read converts to the text of its simple string
or bulk string, and throws what its error message says. A value of the items of an array converts to
the text of its bulk string alone, and throws no message. -/
theorem as_of_values {count : ℕ} {vs : List Value}
    (hrun : (items (value L) count).run s = .ok vs t) :
    (∀ v ∈ vs, (∀ x, v.as = .ok x ↔ v.item = .simpleString x ∨ v.item = .bulkString (some x)) ∧
      ∀ what, v.as = .error (.runtimeError what) ↔ v.item = .errorMessage what) ∧
    ∀ y : Deserialization.Item, (∀ x, (Value.wrap y).as = .ok x ↔ y = .bulkString (some x)) ∧
      ∀ what, (Value.wrap y).as ≠ .error (.runtimeError what) := by
  refine ⟨fun v hv => ?_, fun y => ?_⟩
  · obtain ⟨x, rfl⟩ := marker_of_values hrun v hv
    match x with
    | .simpleString _ | .errorMessage _ | .integer _ | .array _ | .null
    | .bulkString none | .bulkString (some _) =>
      constructor <;> intro y <;>
        simp [Value.ofItem, Value.as, Value.asString, Value.asSimpleString, Value.asBulkString,
          Value.asErrorMessage, Deserialization.Item.marker, throw, throwThe,
          MonadExceptOf.throw, Bind.bind, Except.bind]
  · match y with
    | .simpleString _ | .errorMessage _ | .integer _ | .array _ | .null
    | .bulkString none | .bulkString (some _) =>
      constructor <;> intro y <;> simp [Value.wrap, Value.as, Value.asString, Value.asBulkString]

theorem as_of_values_ok : ∃ vs t,
    (items (value smallLimits) 1).run ⟨text "+OK\r\n", true⟩ = .ok vs t ∧
      ∀ v ∈ vs, ∀ x, v.as = .ok x ↔ v.item = .simpleString x ∨ v.item = .bulkString (some x) := by
  obtain ⟨vs, t, hrun⟩ : ∃ vs t, (items (value smallLimits) 1).run ⟨text "+OK\r\n", true⟩ =
    .ok vs t := ⟨_, _, rfl⟩
  exact ⟨vs, t, hrun, fun v hv => ((as_of_values hrun).1 v hv).1⟩

end Redis
