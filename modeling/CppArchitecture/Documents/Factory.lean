import CppArchitecture.Documents.Dispatch

/-!
# The factory function and the factory class

The function `open` tests the end of a path for the two extensions it knows, dot included. A path
ends so exactly if its last extension is that one, so an opener that has them registered first
chooses the same documents.
-/

namespace Documents

open Core

variable {Opener E : Type}

/-- The last extension of a path. -/
def HasExtension (path extension : StringView) : Prop :=
  '.' ∉ extension ∧ ∃ stem, path = stem ++ '.' :: extension

lemma HasExtension.unique {path e e' : StringView} (h : HasExtension path e)
    (h' : HasExtension path e') : e = e' := by
  obtain ⟨hdot, stem, hpath⟩ := h
  obtain ⟨hdot', stem', hpath'⟩ := h'
  exact (last_cut_unique (hpath.symm.trans hpath') hdot hdot').2

/-- The function tests for the dot and the extension after it. -/
lemma endsWith_iff_hasExtension {path e : StringView} (he : '.' ∉ e) :
    endsWith path ('.' :: e) = true ↔ HasExtension path e := by
  rw [endsWith_cons_iff]
  exact ⟨fun h => ⟨he, h⟩, fun h => h.2⟩

lemma openDocument_eq_pdf_iff {path : StringView} :
    openDocument path = some .pdfDocument ↔ HasExtension path "pdf".toList := by
  rw [← endsWith_iff_hasExtension (by decide)]
  change (if endsWith path ('.' :: "pdf".toList) then _ else _) = _ ↔ _
  split_ifs with hpdf hhtml
  · exact ⟨fun _ => hpdf, fun _ => rfl⟩
  · exact ⟨nofun, fun h => absurd h hpdf⟩
  · exact ⟨nofun, fun h => absurd h hpdf⟩

lemma openDocument_eq_html_iff {path : StringView} :
    openDocument path = some .htmlDocument ↔ HasExtension path "html".toList := by
  rw [← endsWith_iff_hasExtension (by decide)]
  change (if endsWith path ('.' :: "pdf".toList) then _ else
    if endsWith path ('.' :: "html".toList) then _ else _) = _ ↔ _
  split_ifs with hpdf hhtml
  · -- no path has both extensions
    refine ⟨nofun, fun hhtml => ?_⟩
    rw [endsWith_iff_hasExtension (by decide)] at hpdf hhtml
    exact absurd (hpdf.unique hhtml) (by decide)
  · exact ⟨fun _ => hhtml, fun _ => rfl⟩
  · exact ⟨nofun, fun h => absurd h hhtml⟩

namespace DocumentOpener

/-- `open(path)` calls the opener it has found under the extension. -/
def UsesOpenerOf (code : Opener → StringView → Except E DocumentType) (d : DocumentOpener Opener)
    (path extension : StringView) : Prop :=
  ∃ call ∈ after (d.openDocument code path) [], call.extension = extension ∧ call.path = path

/-- `open(path)` returns what the opener it has found under the extension returns. -/
def YieldsFrom (code : Opener → StringView → Except E DocumentType) (d : DocumentOpener Opener)
    (path extension : StringView) (opener : Opener) : Prop :=
  ∃ document, code opener path = .ok document ∧
    (d.openDocument code path).run [] = .ok document [⟨extension, opener, path⟩]

variable {code : Opener → StringView → Except E DocumentType} {rs : List (StringView × Opener)}
  {path extension : StringView} {opener pdf html : Opener} {document : DocumentType}

/-- An opener is found under the last extension of the path. -/
lemma hasExtension_of_mem {call : Call Opener}
    (h : call ∈ after ((ofRegistrations rs).openDocument code path) []) :
    HasExtension path call.extension := by
  rcases path_cases rs path with hdot | ⟨stem, e, hpath, hdot, hnone | ⟨first, hfirst⟩⟩
  · rw [after_error (open_of_no_dot hdot)] at h
    cases h
  · rw [after_error (run_of_unregistered hpath hdot hnone)] at h
    cases h
  · rw [after_of_firstUnder hpath hdot hfirst, List.mem_singleton] at h
    subst h
    exact ⟨hdot, stem, hpath⟩

/-- An opener that returns yields the documents of the paths with its extension. -/
lemma yieldsFrom_iff (h : FirstUnder rs extension opener)
    (hcode : ∀ path, code opener path = .ok document) :
    YieldsFrom code (ofRegistrations rs) path extension opener ↔ HasExtension path extension := by
  constructor
  · rintro ⟨_, _, hrun⟩
    have hmem : ⟨extension, opener, path⟩ ∈
        after ((ofRegistrations rs).openDocument code path) [] := by
      rw [after_ok hrun]
      exact List.mem_singleton_self _
    exact hasExtension_of_mem hmem
  · rintro ⟨hdot, stem, hpath⟩
    refine ⟨document, hcode path, ?_⟩
    rw [run_of_firstUnder hpath hdot h, hcode path]
    rfl

/-- The function and the class choose the same document, as far as the function knows one. -/
theorem factories_agree (hpdf : FirstUnder rs "pdf".toList pdf)
    (hhtml : FirstUnder rs "html".toList html)
    (hpdfCode : ∀ path, code pdf path = .ok (some .pdfDocument))
    (hhtmlCode : ∀ path, code html path = .ok (some .htmlDocument)) (path : StringView) :
    (Documents.openDocument path = some .pdfDocument ↔
      YieldsFrom code (ofRegistrations rs) path "pdf".toList pdf) ∧
    (Documents.openDocument path = some .htmlDocument ↔
      YieldsFrom code (ofRegistrations rs) path "html".toList html) ∧
    (Documents.openDocument path = none →
      Throws ((ofRegistrations rs).openDocument code path) [] ∨
      ∃ extension, extension ≠ "pdf".toList ∧ extension ≠ "html".toList ∧
        UsesOpenerOf code (ofRegistrations rs) path extension) := by
  rw [yieldsFrom_iff hpdf hpdfCode, yieldsFrom_iff hhtml hhtmlCode]
  refine ⟨openDocument_eq_pdf_iff, openDocument_eq_html_iff, fun hnull => ?_⟩
  rcases path_cases rs path with hdot | ⟨stem, e, hpath, hdot, hnone | ⟨first, hfirst⟩⟩
  · exact .inl (throws_of_error (open_of_no_dot hdot))
  · exact .inl (throws_of_error (run_of_unregistered hpath hdot hnone))
  · refine .inr ⟨e, ?_, ?_, ⟨e, first, path⟩, ?_, rfl, rfl⟩
    · rintro rfl
      rw [openDocument_eq_pdf_iff.mpr ⟨hdot, stem, hpath⟩] at hnull
      cases hnull
    · rintro rfl
      rw [openDocument_eq_html_iff.mpr ⟨hdot, stem, hpath⟩] at hnull
      cases hnull
    · rw [after_of_firstUnder hpath hdot hfirst]
      exact List.mem_singleton_self _

/-- The openers of `main`, which are lambdas. -/
def mainOpener : IDocument → StringView → Except Empty DocumentType
  | document, _ => .ok (some document)

/-- The registrations of `main`. -/
def mainRegistrations : List (StringView × IDocument) :=
  [("pdf".toList, .pdfDocument), ("html".toList, .htmlDocument), ("odt".toList, .odtDocument)]

/-- The path of `main` is none of the two, so the function has no document for it. -/
theorem factories_agree_main :
    ¬ YieldsFrom mainOpener (ofRegistrations mainRegistrations) "file.odt".toList "pdf".toList
      .pdfDocument := by
  have hpdf : FirstUnder mainRegistrations "pdf".toList .pdfDocument := firstUnder_cons_self
  have hhtml : FirstUnder mainRegistrations "html".toList .htmlDocument :=
    firstUnder_cons_self.cons (by decide)
  have hnone : Documents.openDocument "file.odt".toList = none := by decide
  intro hyields
  rw [← (factories_agree hpdf hhtml (fun _ => rfl) (fun _ => rfl) "file.odt".toList).1] at hyields
  rw [hnone] at hyields
  cases hyields

end DocumentOpener

end Documents
