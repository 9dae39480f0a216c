import Interop.Emission.Declaration

/-!
# Output libraries

A library is written from the files that belong to it: their declarations, below the imports that
writing them turned out to need.

* `libraryText` — the text of a library.
* `writeLibrary` — a library with what was reported on the way.
-/

namespace Interop

/-! ## Text -/

/-- The name of a library in the target. -/
def libraryName (name : String) : String :=
  Identifier.sanitize name

/-- The file that a library is written to. -/
def libraryFile (name : String) : String :=
  libraryName name ++ ".dart"

/-- An import of a file. -/
def OutputDecl.ofImport (file : String) : OutputDecl :=
  { kind := .importDirective, header := "import '" ++ file ++ "';" }

/-- The directive of a library. -/
def OutputDecl.ofLibrary (name : String) : OutputDecl :=
  { kind := .library, header := "library " ++ libraryName name ++ ";", metadata := ["@JS()"] }

/-- Add a declaration and those in its body. -/
def Outline.addItem (o : Outline) (item : Item) (parent : Nat) : Outline :=
  item.members.foldl (fun below decl => below.add decl (some o.size)) (o.add item.decl (some parent))

/-- The outline of a library: its imports, then its declarations. -/
def libraryOutline (name : String) (imports : List String) (items : List Item) : Outline :=
  let root := ({} : Outline).add (.ofLibrary name) none
  let files := "package:js/js.dart" :: imports.map libraryFile
  let opened := files.foldl (fun o file => o.add (.ofImport file) (some 0)) root
  items.foldl (fun o item => o.addItem item 0) opened

/-- The text of a library that imports others, which are given by their names. -/
def libraryText (name : String) (imports : List String) (items : List Item) : String :=
  (libraryOutline name imports items).render 0

/-- The names of the libraries that a library imports. -/
def Session.importNames (s : Session) (library : Nat) : List String :=
  (s.importsOf library).filterMap fun id => (s.library? id).map (·.name)

/-! ## Libraries -/

/-- A diagnostic and the file that it is about. -/
structure FileDiagnostic where
  path : String
  diagnostic : Diagnostic
  deriving DecidableEq, Repr, Inhabited

/-- The wording of a diagnostic, after its file. -/
def FileDiagnostic.message (d : FileDiagnostic) : String :=
  d.path ++ ":" ++ d.diagnostic.message

/-- An output library. -/
structure OutputLibrary where
  name : String
  /-- The text; empty if the work on the library was given up. -/
  text : String
  /-- What was reported while the text was made. -/
  diagnostics : List FileDiagnostic
  /-- Why the work was given up. -/
  failure : Option Failure
  deriving DecidableEq, Repr

namespace OutputLibrary

/-- The file that the library is written to. -/
def file (library : OutputLibrary) : String :=
  libraryFile library.name

/-- Whether everything of the source was carried over. -/
def status (library : OutputLibrary) : Except Failure Unit :=
  match library.failure with
  | some failure => .error failure
  | none =>
    if library.diagnostics.isEmpty then .ok ()
    else .error (.reported (library.diagnostics.map (·.diagnostic)))

end OutputLibrary

/-- A file whose declarations are in the symbol table. -/
structure CollectedFile where
  path : String
  /-- The number of the file in the symbol table. -/
  file : Nat
  /-- What could not be lowered. -/
  notes : List Diagnostic
  deriving DecidableEq, Repr, Inhabited

namespace CollectedFile

/-- The declarations of a file.  What could not be lowered is reported first. -/
def items (f : CollectedFile) : Work (List Item) := do
  f.notes.forM Work.report
  fileItems f.file

/-- The declarations of a file, and everything that was reported. -/
def itemsAndReports (f : CollectedFile) :
    StateM Session (Except Failure (List Item) × List FileDiagnostic) := do
  let outcome ← f.items.run
  let reports ← Session.takeDiagnostics
  return (outcome, reports.map fun d => ⟨f.path, d⟩)

end CollectedFile

/-- The declarations of several files, up to the first one on which the work is given up, and
everything that was reported. -/
def filesItems : List CollectedFile →
    StateM Session (Except Failure (List Item) × List FileDiagnostic)
  | [] => return (.ok [], [])
  | f :: rest => do
    match ← f.itemsAndReports with
    | (.error failure, reports) => return (.error failure, reports)
    | (.ok items, reports) =>
      let (outcome, more) ← filesItems rest
      return (outcome.map (items ++ ·), reports ++ more)

/-- Write a library. -/
def writeLibrary (library : Nat) (name : String) (files : List CollectedFile) :
    StateM Session OutputLibrary := do
  modify (·.enter library)
  let (outcome, diagnostics) ← filesItems files
  match outcome with
  | .ok items =>
    return ⟨name, libraryText name ((← get).importNames library) items, diagnostics, none⟩
  | .error failure => return ⟨name, "", diagnostics, some failure⟩

end Interop
