import CppArchitecture.Documents.Basic

/-!
# Dispatch on the last extension

What follows the last dot of a path decides which opener is called: the one registered first for
it. Nothing else about the registrations matters, so those for an extension that is taken, or
that has a dot in it, change nothing, and those for different extensions come in any order.
-/

namespace Documents

open Core

variable {Opener E : Type} {code : Opener → StringView → Except E DocumentType}

namespace DocumentOpener

/-- `open(path)` calls the opener. -/
def Calls (code : Opener → StringView → Except E DocumentType) (d : DocumentOpener Opener)
    (path : StringView) (opener : Opener) : Prop :=
  ∃ call ∈ after (d.openDocument code path) [], call.opener = opener ∧ call.path = path

/-- `open(path)` throws an exception of its own. -/
def ThrowsOwn (code : Opener → StringView → Except E DocumentType) (d : DocumentOpener Opener)
    (path : StringView) (e : Exception E) : Prop :=
  ∃ calls, (d.openDocument code path).run [] = .error e calls

/-- `open` has the same outcome for every path. -/
def SameOutcome (code : Opener → StringView → Except E DocumentType)
    (d d' : DocumentOpener Opener) : Prop :=
  ∀ path calls, (d.openDocument code path).run calls = (d'.openDocument code path).run calls

variable {rs : List (StringView × Opener)} {path stem extension : StringView} {opener : Opener}

lemma ofRegistrations_eq : ofRegistrations rs = ⟨Table.emplaceAll ∅ rs⟩ := by
  rw [← openerByExtension_ofRegistrations]

/-! ### The three outcomes -/

/-- A path has no extension, one that is not registered, or one with a first opener. -/
lemma path_cases (rs : List (StringView × Opener)) (path : StringView) :
    '.' ∉ path ∨ ∃ stem extension, path = stem ++ '.' :: extension ∧ '.' ∉ extension ∧
      ((∀ r ∈ rs, r.1 ≠ extension) ∨ ∃ opener, FirstUnder rs extension opener) := by
  by_cases hdot : '.' ∈ path
  · obtain ⟨stem, extension, hpath, hext⟩ := exists_last_cut hdot
    exact .inr ⟨stem, extension, hpath, hext, firstUnder_or rs extension⟩
  · exact .inl hdot

lemma run_of_unregistered (hpath : path = stem ++ '.' :: extension) (hdot : '.' ∉ extension)
    (h : ∀ r ∈ rs, r.1 ≠ extension) {calls : List (Call Opener)} :
    ((ofRegistrations rs).openDocument code path).run calls = .error .outOfRange calls := by
  apply open_of_unregistered hpath hdot
  rw [openerByExtension_ofRegistrations, Table.lookup_emplaceAll_eq_none_iff]
  exact h

lemma run_of_firstUnder (hpath : path = stem ++ '.' :: extension) (hdot : '.' ∉ extension)
    (h : FirstUnder rs extension opener) {calls : List (Call Opener)} :
    ((ofRegistrations rs).openDocument code path).run calls =
      match code opener path with
      | .ok document => .ok document (calls ++ [⟨extension, opener, path⟩])
      | .error e => .error (.opener e) (calls ++ [⟨extension, opener, path⟩]) := by
  apply open_of_registered hpath hdot
  rw [openerByExtension_ofRegistrations, Table.lookup_emplaceAll_eq_some_iff]
  exact h

/-- A path with a registered extension makes one call, to the first opener of it. -/
lemma after_of_firstUnder (hpath : path = stem ++ '.' :: extension) (hdot : '.' ∉ extension)
    (h : FirstUnder rs extension opener) :
    after ((ofRegistrations rs).openDocument code path) [] = [⟨extension, opener, path⟩] := by
  have hrun : ((ofRegistrations rs).openDocument code path).run [] = _ :=
    run_of_firstUnder hpath hdot h
  cases hcode : code opener path with
  | ok document =>
    rw [hcode] at hrun
    exact after_ok hrun
  | error e =>
    rw [hcode] at hrun
    exact after_error hrun

/-- What that opener returns or throws is what `open` does. -/
lemma attempt_of_firstUnder (hpath : path = stem ++ '.' :: extension) (hdot : '.' ∉ extension)
    (h : FirstUnder rs extension opener) :
    attempt ((ofRegistrations rs).openDocument code path) [] =
      ((code opener path).mapError .opener, [⟨extension, opener, path⟩]) := by
  rw [attempt, run_of_firstUnder hpath hdot h]
  cases code opener path <;> rfl

/-- Any other path makes no call. -/
lemma after_of_error {e : Exception E}
    (h : ((ofRegistrations rs).openDocument code path).run [] = .error e []) :
    ¬ Calls code (ofRegistrations rs) path opener := by
  rintro ⟨call, hmem, _⟩
  rw [after_error h] at hmem
  cases hmem

lemma calls_iff : Calls code (ofRegistrations rs) path opener ↔
    ∃ stem extension, path = stem ++ '.' :: extension ∧ '.' ∉ extension ∧
      FirstUnder rs extension opener := by
  constructor
  · intro h
    rcases path_cases rs path with hdot | ⟨stem, extension, hpath, hdot, hnone | ⟨first, hfirst⟩⟩
    · exact absurd h (after_of_error (open_of_no_dot hdot))
    · exact absurd h (after_of_error (run_of_unregistered hpath hdot hnone))
    · obtain ⟨call, hmem, hopener, _⟩ := h
      rw [after_of_firstUnder hpath hdot hfirst, List.mem_singleton] at hmem
      subst hmem
      subst hopener
      exact ⟨stem, extension, hpath, hdot, hfirst⟩
  · rintro ⟨stem, extension, hpath, hdot, hfirst⟩
    refine ⟨⟨extension, opener, path⟩, ?_, rfl, rfl⟩
    rw [after_of_firstUnder hpath hdot hfirst]
    exact List.mem_singleton_self _

/-- An opener that has been called is the only source of exceptions. -/
lemma not_throwsOwn_of_firstUnder (hpath : path = stem ++ '.' :: extension)
    (hdot : '.' ∉ extension) (h : FirstUnder rs extension opener) {e : Exception E}
    (hthrows : ThrowsOwn code (ofRegistrations rs) path e) : ∃ e', e = .opener e' := by
  obtain ⟨calls, hrun⟩ := hthrows
  rw [run_of_firstUnder hpath hdot h] at hrun
  cases hcode : code opener path with
  | ok document =>
    rw [hcode] at hrun
    cases hrun
  | error e' =>
    rw [hcode] at hrun
    cases hrun
    exact ⟨e', rfl⟩

lemma throwsOwn_invalidArgument_iff :
    (∃ what, ThrowsOwn code (ofRegistrations rs) path (.invalidArgument what)) ↔ '.' ∉ path := by
  constructor
  · rintro ⟨what, hthrows⟩
    rcases path_cases rs path with hdot | ⟨stem, extension, hpath, hdot, hnone | ⟨first, hfirst⟩⟩
    · exact hdot
    · obtain ⟨calls, hrun⟩ := hthrows
      rw [run_of_unregistered hpath hdot hnone] at hrun
      cases hrun
    · obtain ⟨e, he⟩ := not_throwsOwn_of_firstUnder hpath hdot hfirst hthrows
      cases he
  · intro hdot
    exact ⟨_, [], open_of_no_dot hdot⟩

lemma throwsOwn_outOfRange_iff : ThrowsOwn code (ofRegistrations rs) path .outOfRange ↔
    ∃ stem extension, path = stem ++ '.' :: extension ∧ '.' ∉ extension ∧
      ∀ r ∈ rs, r.1 ≠ extension := by
  constructor
  · intro hthrows
    rcases path_cases rs path with hdot | ⟨stem, extension, hpath, hdot, hnone | ⟨first, hfirst⟩⟩
    · obtain ⟨calls, hrun⟩ := hthrows
      rw [open_of_no_dot hdot] at hrun
      cases hrun
    · exact ⟨stem, extension, hpath, hdot, hnone⟩
    · obtain ⟨e, he⟩ := not_throwsOwn_of_firstUnder hpath hdot hfirst hthrows
      cases he
  · rintro ⟨stem, extension, hpath, hdot, hnone⟩
    exact ⟨[], run_of_unregistered hpath hdot hnone⟩

/-! ### Registrations that change nothing -/

variable {rs' : List (StringView × Opener)} {other : StringView} {opener' : Opener}

/-- The outcome of `open` is decided by the openers of the extensions without a dot. -/
lemma sameOutcome_of_lookup {d d' : DocumentOpener Opener}
    (h : ∀ e, '.' ∉ e → d.openerByExtension.lookup e = d'.openerByExtension.lookup e) :
    SameOutcome code d d' := by
  intro path calls
  by_cases hdot : '.' ∈ path
  · obtain ⟨stem, e, hpath, he⟩ := exists_last_cut hdot
    cases hlookup : d.openerByExtension.lookup e with
    | none =>
      rw [open_of_unregistered hpath he hlookup,
        open_of_unregistered hpath he ((h e he).symm.trans hlookup)]
    | some f =>
      rw [open_of_registered hpath he hlookup,
        open_of_registered hpath he ((h e he).symm.trans hlookup)]
  · rw [open_of_no_dot hdot, open_of_no_dot hdot]

lemma register_again (h : ∃ r ∈ rs, r.1 = extension) :
    ofRegistrations (rs ++ (extension, opener) :: rs') = ofRegistrations (rs ++ rs') := by
  have hmem : extension ∈ Table.emplaceAll ∅ rs := by
    rw [← Finmap.lookup_isSome, ← Option.ne_none_iff_isSome, Ne,
      Table.lookup_emplaceAll_eq_none_iff]
    obtain ⟨r, hr, hext⟩ := h
    exact fun hne => hne r hr hext
  rw [ofRegistrations_eq, ofRegistrations_eq, Table.emplaceAll_append, Table.emplaceAll_append,
    Table.emplaceAll_cons, Table.emplace_of_mem hmem]

lemma register_dotted (h : '.' ∈ extension) : SameOutcome code
    (ofRegistrations (rs ++ (extension, opener) :: rs')) (ofRegistrations (rs ++ rs')) := by
  apply sameOutcome_of_lookup
  intro e he
  have hne : e ≠ extension := by
    rintro rfl
    exact he h
  rw [ofRegistrations_eq, ofRegistrations_eq, Table.emplaceAll_append, Table.emplaceAll_append,
    Table.emplaceAll_cons]
  exact Table.lookup_emplaceAll_congr (Table.lookup_emplace_of_ne hne)

lemma register_comm (h : extension ≠ other) :
    ofRegistrations (rs ++ (extension, opener) :: (other, opener') :: rs') =
      ofRegistrations (rs ++ (other, opener') :: (extension, opener) :: rs') := by
  rw [ofRegistrations_eq, ofRegistrations_eq, Table.emplaceAll_append, Table.emplaceAll_append,
    Table.emplaceAll_cons, Table.emplaceAll_cons, Table.emplaceAll_cons, Table.emplaceAll_cons,
    Table.emplace_comm h]

/-- `open` calls the first opener of the last extension, once, and returns or throws what that
opener does; it throws an exception of its own if there is none. So a registration for an
extension that is taken or has a dot in it changes no outcome, and those for different
extensions commute. -/
theorem dispatches_on_last_extension (code : Opener → StringView → Except E DocumentType)
    (rs : List (StringView × Opener)) :
    (∀ path, (∀ opener, Calls code (ofRegistrations rs) path opener ↔
        ∃ stem extension, path = stem ++ '.' :: extension ∧ '.' ∉ extension ∧
          FirstUnder rs extension opener) ∧
      ((∃ what, ThrowsOwn code (ofRegistrations rs) path (.invalidArgument what)) ↔
        '.' ∉ path) ∧
      (ThrowsOwn code (ofRegistrations rs) path .outOfRange ↔
        ∃ stem extension, path = stem ++ '.' :: extension ∧ '.' ∉ extension ∧
          ∀ r ∈ rs, r.1 ≠ extension) ∧
      ∀ stem extension opener, path = stem ++ '.' :: extension → '.' ∉ extension →
        FirstUnder rs extension opener →
        attempt ((ofRegistrations rs).openDocument code path) [] =
          ((code opener path).mapError .opener, [⟨extension, opener, path⟩])) ∧
    (∀ rs' extension opener, (∃ r ∈ rs, r.1 = extension) ∨ '.' ∈ extension →
      SameOutcome code (ofRegistrations (rs ++ (extension, opener) :: rs'))
        (ofRegistrations (rs ++ rs'))) ∧
    ∀ rs' extension other opener opener', extension ≠ other →
      ofRegistrations (rs ++ (extension, opener) :: (other, opener') :: rs') =
        ofRegistrations (rs ++ (other, opener') :: (extension, opener) :: rs') := by
  refine ⟨fun path => ⟨fun opener => calls_iff, throwsOwn_invalidArgument_iff,
    throwsOwn_outOfRange_iff, fun _ _ _ => attempt_of_firstUnder⟩, ?_, fun rs' extension other opener opener' => register_comm⟩
  rintro rs' extension opener (htaken | hdotted)
  · intro path calls
    rw [register_again htaken]
  · exact register_dotted hdotted

end DocumentOpener

end Documents
