import Interop.Collection.Catalogue
import Interop.Source.EarlyError
import Interop.Generation.Library
import Interop.Generation.Module

/-!
# Generation

A run takes all of its files together: declarations of any file may refer to those of any other.

* `collect` — the symbol table of all files.
* `Session.prepare` — the libraries of a run and the names in them, before anything is written.
* `planRun` — what a run is about, once its files are read.
* `generate` — the output libraries of a run.
-/

namespace Interop

open Source

/-- What can be chosen for a run. -/
structure GenerationOptions where
  /-- What the first diagnostic does. -/
  mode : ReportMode := .batch
  /-- How unions are shown. -/
  policy : UnionPolicy := .untyped
  /-- The name of the one library that all files go into, if they are to. -/
  merge : Option String := none
  deriving DecidableEq, Repr, Inhabited

/-- An input. -/
structure SourceFile where
  path : String
  text : String
  deriving DecidableEq, Repr, Inhabited

/-- Why nothing can be generated. -/
inductive Rejection where
  /-- A file does not follow the grammar. -/
  | malformed (path : String)
  /-- A file follows the grammar, but its declarations do not fit together. -/
  | inconsistent (path : String)
  /-- The names could not be given out. -/
  | failed (failure : Failure)
  deriving DecidableEq, Repr

/-! ## Reading -/

/-- The syntax tree of a file that is well formed. -/
def SourceFile.read (file : SourceFile) : Except Rejection Program :=
  match parse (.ofPath file.path) file.text with
  | none => .error (.malformed file.path)
  | some program =>
    if program.isWellFormed then .ok program else .error (.inconsistent file.path)

/-! ## Collecting -/

/-- A file that was read. -/
structure ReadFile where
  path : String
  place : Place
  program : Program

/-- The files of a run with their places. -/
def placeFiles (files : List SourceFile) (programs : List Program) : List ReadFile :=
  let names := moduleNames (files.map (·.path))
  ((files.zip names).zip programs).zipIdx.map fun (((file, name), program), i) =>
    ⟨file.path, { file := i, module := name, source := file.text }, program⟩

/-- Give every declaration of every file its symbol. -/
def declareFiles (files : List ReadFile) : Catalogue :=
  files.foldl (fun c f => declareAll f.place c f.program.body) {}

/-- Define the symbols of every file, and note for each what could not be lowered. -/
def defineFiles (c : Catalogue) : List ReadFile → Catalogue × List CollectedFile
  | [] => (c, [])
  | f :: rest =>
    let d := defineAll f.place ⟨c, []⟩ f.program.body
    let (c, collected) := defineFiles d.catalogue rest
    (c, ⟨f.path, f.place.file, d.notes⟩ :: collected)

/-- The symbol table of all files, and what could not be lowered. -/
def collect (files : List ReadFile) : SymbolTable × List CollectedFile :=
  let (c, collected) := defineFiles (declareFiles files) files
  (c.table, collected)

/-! ## Libraries -/

/-- A library to be written, with its files in the order of the input. -/
structure LibraryPlan where
  name : String
  files : List CollectedFile
  deriving DecidableEq, Repr, Inhabited

/-- Add a file to the library of a name, or to a new one at the end. -/
def addToPlans (name : String) (file : CollectedFile) : List LibraryPlan → List LibraryPlan
  | [] => [⟨name, [file]⟩]
  | plan :: plans =>
    if plan.name == name then { plan with files := plan.files ++ [file] } :: plans
    else plan :: addToPlans name file plans

/-- The libraries of a run: one for each module, or one for all. -/
def planLibraries (merge : Option String) (files : List (String × CollectedFile)) :
    List LibraryPlan :=
  files.foldl (fun plans (name, file) => addToPlans (merge.getD name) file plans) []

/-- The session with a library for a plan. -/
def Session.open (s : Session) (plan : LibraryPlan) : Session :=
  plan.files.foldl (fun opened f => opened.assign f.file s.libraries.size) (s.addLibrary plan.name)

/-- Whether a symbol is declared under a name of its own. -/
def Symbol.isNamed (s : Symbol) : Bool :=
  s.kind.isEmitted && s.externalName.isNone && s.hasLegalName

/-- Give a symbol its name. -/
def nameSymbol (s : Symbol) : Work Unit := do
  match s.isNamed, (← get).libraryOf? s.file with
  | true, some library =>
    modify (·.pointAt s.span)
    discard (Work.allocate s.path library)
  | _, _ => return ()

/-- Give all symbols their names, in the order of their registration, so that no name depends on
what refers to a declaration first. -/
def nameSymbols (table : SymbolTable) : Work Unit :=
  table.toList.forM fun (_, s) => nameSymbol s

/-- The session in which nothing is written yet: all libraries are there, and all names. -/
def Session.prepare (table : SymbolTable) (options : GenerationOptions)
    (plans : List LibraryPlan) : Except Failure Session :=
  let opened := plans.foldl Session.open (.start table options.mode options.policy)
  match (nameSymbols table).run.run opened with
  | (.ok _, s) => .ok s
  | (.error failure, _) => .error failure

/-- Write several libraries, of which the first has a number. -/
def writeLibraries (first : Nat) : List LibraryPlan → StateM Session (List OutputLibrary)
  | [] => return []
  | plan :: plans => do
    let library ← writeLibrary first plan.name plan.files
    return library :: (← writeLibraries (first + 1) plans)

/-! ## Runs -/

/-- What a run is about: the symbols of all files, and the libraries they go into. -/
structure RunPlan where
  table : SymbolTable
  libraries : List LibraryPlan

/-- Plan a run from files and their syntax trees. -/
def planRun (merge : Option String) (files : List SourceFile) (programs : List Program) : RunPlan :=
  let placed := placeFiles files programs
  let (table, collected) := collect placed
  ⟨table, planLibraries merge ((placed.map (·.place.module)).zip collected)⟩

/-- Generate libraries from files.  The files are read one by one, and the first that cannot be read
ends the run. -/
def generate (files : List SourceFile) (options : GenerationOptions) :
    Except Rejection (List OutputLibrary) := do
  let programs ← files.mapM SourceFile.read
  let plan := planRun options.merge files programs
  match Session.prepare plan.table options plan.libraries with
  | .error failure => throw (.failed failure)
  | .ok session => return ((writeLibraries 0 plan.libraries).run session).1

end Interop
