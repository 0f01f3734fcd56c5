import CppArchitecture.Core.Method
import CppArchitecture.Core.Table
import CppArchitecture.Core.Text

/-!
# Documents and their openers

A document is opened by the extension of its path: by the function `open`, which knows two of
them, or by a `DocumentOpener`, with which an opener is registered for every extension. Openers
are function pointers; what a call through one does is given by their code.
-/

namespace Documents

open Core

abbrev StringView := List Char

/-- The classes that implement `IDocument`. -/
inductive IDocument where
  | pdfDocument
  | htmlDocument
  | odtDocument
  deriving DecidableEq, Repr

/-- `std::unique_ptr<IDocument>` -/
abbrev DocumentType := Option IDocument

/-- The free function `open`. -/
def openDocument (path : StringView) : DocumentType :=
  if endsWith path ".pdf".toList then some .pdfDocument
  else if endsWith path ".html".toList then some .htmlDocument
  else none

/-- What `DocumentOpener::open` throws, and what the opener it calls throws. -/
inductive Exception (E : Type) where
  | invalidArgument (what : String)
  | outOfRange
  | opener (e : E)
  deriving DecidableEq, Repr

/-- A call of an opener, with the extension under which it was found. -/
structure Call (Opener : Type) where
  extension : StringView
  opener : Opener
  path : StringView
  deriving DecidableEq, Repr

/-- `class DocumentOpener`, for function pointers of type `Opener`. -/
structure DocumentOpener (Opener : Type) where
  openerByExtension : Table StringView Opener := ∅

variable {Opener E : Type}

namespace DocumentOpener

/-- `Register` -/
def register (d : DocumentOpener Opener) (extension : StringView) (opener : Opener) :
    DocumentOpener Opener :=
  { d with openerByExtension := d.openerByExtension.emplace extension opener }

/-- `open`, which writes down the call of an opener it makes. -/
def openDocument (code : Opener → StringView → Except E DocumentType)
    (d : DocumentOpener Opener) (path : StringView) :
    EStateM (Exception E) (List (Call Opener)) DocumentType := do
  match findLastOf '.' path with
  | some last_dot =>
    match substr path (last_dot + 1) with
    | none => throw .outOfRange
    | some extension =>
      match d.openerByExtension.lookup extension with
      | none => throw .outOfRange
      | some opener =>
        modify fun calls => calls ++ [⟨extension, opener, path⟩]
        match code opener path with
        | .ok document => return document
        | .error e => throw (.opener e)
  | none => throw (.invalidArgument "Trying to open a file with no extension")

/-- The opener after a sequence of calls of `Register`. -/
def ofRegistrations (rs : List (StringView × Opener)) : DocumentOpener Opener :=
  rs.foldl (fun d r => d.register r.1 r.2) {}

/-! ### What the calls do -/

variable {code : Opener → StringView → Except E DocumentType} {d : DocumentOpener Opener}
  {rs : List (StringView × Opener)} {path stem extension : StringView} {opener : Opener}
  {calls : List (Call Opener)}

lemma openerByExtension_foldl : (rs.foldl (fun d r => d.register r.1 r.2) d).openerByExtension =
    d.openerByExtension.emplaceAll rs := by
  induction rs generalizing d with
  | nil => rfl
  | cons r rs ih => exact ih

lemma openerByExtension_ofRegistrations :
    (ofRegistrations rs).openerByExtension = Table.emplaceAll ∅ rs :=
  openerByExtension_foldl

lemma open_of_no_dot (h : '.' ∉ path) : (d.openDocument code path).run calls =
    .error (.invalidArgument "Trying to open a file with no extension") calls := by
  simp only [openDocument, findLastOf_of_notMem h, run_throw]

lemma open_of_unregistered (hpath : path = stem ++ '.' :: extension) (hdot : '.' ∉ extension)
    (h : d.openerByExtension.lookup extension = none) :
    (d.openDocument code path).run calls = .error .outOfRange calls := by
  subst hpath
  simp only [openDocument, findLastOf_append hdot, substr_append, h, run_throw]

/-- The outcome is that of the opener, which is called once. -/
lemma open_of_registered (hpath : path = stem ++ '.' :: extension) (hdot : '.' ∉ extension)
    (h : d.openerByExtension.lookup extension = some opener) :
    (d.openDocument code path).run calls =
      match code opener path with
      | .ok document => .ok document (calls ++ [⟨extension, opener, path⟩])
      | .error e => .error (.opener e) (calls ++ [⟨extension, opener, path⟩]) := by
  subst hpath
  simp only [openDocument, findLastOf_append hdot, substr_append, h, EStateM.run_bind,
    EStateM.run_modify]
  cases code opener (stem ++ '.' :: extension) <;> rfl

end DocumentOpener

end Documents
