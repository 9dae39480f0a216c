import Interop.Diagnostic.Log
import Interop.Name.Library
import Interop.Symbol.Table

/-!
# The state of a run

Rendering types gives names to declarations, notes which libraries need which, and reports what
cannot be expressed.  All of that is kept in one `Session`, and `Work` is a computation on it that
may fail; what a failed computation did to the session stays done.

* `Work.within` — run a computation between a change and its undoing, whether it fails or not.
* `Work.detached` — run a computation whose text is never written, so that it adds no import.
* `Work.nameOf` — the target name of a declared symbol, which is what adds imports.
-/

namespace Interop

/-- How a union is shown when several of its members can be. -/
inductive UnionPolicy where
  /-- As the untyped type. -/
  | untyped
  /-- As the first of them. -/
  | firstConcrete
  deriving DecidableEq, Repr, Inhabited

/-- Everything that changes during a run, and the table it is about. -/
structure Session where
  table : SymbolTable
  policy : UnionPolicy
  log : Log
  registry : Registry := {}
  libraries : Array Library := #[]
  /-- The library each file belongs to; the first entry of a file counts. -/
  assignments : List (Nat × Nat) := []
  /-- The library being written. -/
  current : Option Nat := none
  /-- Pairs of a library and one it imports, in order of first use. -/
  imports : List (Nat × Nat) := []
  /-- Where diagnostics point. -/
  position : Span := Span.none
  /-- The type parameters that may be named, innermost scope first. -/
  scopes : List (List String) := []
  /-- The aliases being expanded, innermost first. -/
  expanding : List Nat := []
  /-- How many detached computations are going on. -/
  detachment : Nat := 0
  deriving Inhabited

namespace Session

/-- The session in which nothing has happened. -/
def start (table : SymbolTable) (mode : ReportMode) (policy : UnionPolicy) : Session :=
  { table, policy, log := { mode } }

/-! ## Libraries -/

/-- The session with a new library, in which the core names are in use. -/
def addLibrary (s : Session) (name : String) : Session :=
  { s with libraries := s.libraries.push (.withCoreNames s.libraries.size name) }

/-- The session in which a file belongs to a library. -/
def assign (s : Session) (file library : Nat) : Session :=
  { s with assignments := (file, library) :: s.assignments }

/-- The session in which a library is being written. -/
def enter (s : Session) (library : Nat) : Session :=
  { s with current := some library }

/-- The session in which diagnostics point to a place. -/
def pointAt (s : Session) (span : Span) : Session :=
  { s with position := span }

/-- A library by its number. -/
def library? (s : Session) (id : Nat) : Option Library :=
  s.libraries[id]?

/-- The library of a file. -/
def libraryOf? (s : Session) (file : Nat) : Option Nat :=
  s.assignments.lookup file

/-- The libraries that a library imports, in order of first use. -/
def importsOf (s : Session) (library : Nat) : List Nat :=
  (s.imports.filter fun edge => edge.1 == library).map (·.2)

/-- The session in which one library imports another. -/
def addImport (s : Session) (importer imported : Nat) : Session :=
  if s.imports.contains (importer, imported) then s
  else { s with imports := s.imports ++ [(importer, imported)] }

/-- Note that the library being written refers to a library, unless it is the same one or nothing
is being written. -/
def refer (s : Session) (library : Nat) : Session :=
  match s.current with
  | some importer =>
    if s.detachment == 0 && importer != library then s.addImport importer library else s
  | none => s

/-! ## Scopes -/

/-- The session inside the scope of some type parameters. -/
def pushScope (s : Session) (names : List String) : Session :=
  { s with scopes := names :: s.scopes }

/-- The session outside its innermost scope. -/
def popScope (s : Session) : Session :=
  { s with scopes := s.scopes.tail }

/-- Whether a type parameter may be named. -/
def inScope (s : Session) (name : String) : Bool :=
  s.scopes.any (·.contains name)

/-- The session in which an alias is being expanded. -/
def pushAlias (s : Session) (id : Nat) : Session :=
  { s with expanding := id :: s.expanding }

/-- The session in which the innermost alias is no longer being expanded. -/
def popAlias (s : Session) : Session :=
  { s with expanding := s.expanding.tail }

/-- The session inside a detached computation. -/
def detach (s : Session) : Session :=
  { s with detachment := s.detachment + 1 }

/-- The session outside its innermost detached computation. -/
def attach (s : Session) : Session :=
  { s with detachment := s.detachment - 1 }

end Session

/-! ## Computations -/

/-- A computation on a session that may fail. -/
abbrev Work := ExceptT Failure (StateM Session)

namespace Work

/-- Run a computation between a change of the session and its undoing.  The change is undone also
when the computation fails. -/
def within {α : Type} (enter leave : Session → Session) (work : Work α) : Work α :=
  ExceptT.mk do
    modify enter
    let result ← work.run
    modify leave
    return result

/-- Run a computation inside the scope of some type parameters. -/
def inScope {α : Type} (names : List String) (work : Work α) : Work α :=
  within (·.pushScope names) Session.popScope work

/-- Run a computation that belongs to the expansion of an alias. -/
def expanding {α : Type} (id : Nat) (work : Work α) : Work α :=
  within (·.pushAlias id) Session.popAlias work

/-- Run a computation for text that only decides something and is never written. -/
def detached {α : Type} (work : Work α) : Work α :=
  within Session.detach Session.attach work

/-- The symbol table of the session. -/
def table : Work SymbolTable :=
  return (← get).table

/-! ## Reports -/

/-- Report a diagnostic. -/
def report (d : Diagnostic) : Work Unit := do
  match (← get).log.add d with
  | .ok log => modify fun s => { s with log }
  | .error failure => throw failure

/-- Report a construct that has no counterpart, at the current place. -/
def reportUnsupported (construct : String) : Work Unit := do
  report (.unsupported (← get).position construct)

/-- Report a name that refers to nothing, at the current place. -/
def reportUnresolved (name : String) : Work Unit := do
  report (.unresolved (← get).position name)

/-! ## Names -/

/-- The flat name of a path in a library. -/
def allocate (path : DeclPath) (library : Nat) : Work String := do
  let s ← get
  match s.library? library with
  | none => throw (.structural s.position (.missingLibrary library path))
  | some lib =>
    let (name, registry, lib) := s.registry.allocate path lib
    set { s with registry, libraries := s.libraries.setIfInBounds library lib }
    return name

/-- The target name of a declared symbol, given to it in the library of its file; `none` when it has
no legal name.  To name a symbol of another library than the one being written is to import that
library. -/
def nameOf (id : Nat) : Work (Option String) := do
  let s ← get
  match s.table.get? id with
  | none => return none
  | some symbol =>
    match symbol.externalName with
    | some target => return some target
    | none =>
      match s.libraryOf? symbol.file with
      | none => throw (.structural symbol.span (.foreignFile symbol.path))
      | some library =>
        if symbol.hasLegalName then
          modify (·.refer library)
          return some (← allocate symbol.path library)
        else return none

end Work

/-- Hand over the diagnostics, by place. -/
def Session.takeDiagnostics : StateM Session (List Diagnostic) := do
  let log := (← get).log
  modify fun s => { s with log := log.cleared }
  return log.sorted

end Interop
