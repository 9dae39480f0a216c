import Interop.Source.Grammar

/-!
# Modules

The path of an input says which language it is in, and what the module in it is called.

* `moduleStem` — the name that a path suggests.
* `moduleNames` — the names of all modules of a run, all different.
* `Source.Language.ofPath` — the language of a file.
-/

namespace Interop

/-! ## Paths of files -/

/-- The parts of a path between its slashes, without empty ones and those that stay in place. -/
def pathParts (path : String) : List String :=
  (path.splitOn "/").filter fun part => part != "" && part != "."

/-- The last part of a path; empty where that is no name. -/
def fileName (path : String) : String :=
  match (pathParts path).getLast? with
  | some name => if name == ".." then "" else name
  | none => ""

/-- What stands before an ending, if a name has that ending. -/
def beforeEnding (ending name : String) : Option String :=
  if ending.toList.isSuffixOf name.toList then
    some (String.ofList (name.toList.take (name.toList.length - ending.toList.length)))
  else none

/-- The endings that are no part of a module's name.  The first that fits counts. -/
def moduleEndings : List String :=
  [".d.ts", ".d.mts", ".d.cts", ".ts", ".tsx", ".mts", ".cts"]

/-- The name that a path suggests for its module. -/
def moduleStem (path : String) : String :=
  (moduleEndings.findSome? fun ending => beforeEnding ending (fileName path)).getD (fileName path)

/-! ## Unique names -/

/-- A stem with a number. -/
def numberedStem (stem : String) (n : Nat) : String :=
  stem ++ "_" ++ toString n

/-- The first number from `n` on with which a stem is not taken.  Among one more number than there
are taken names some number is free, so the search is given that many. -/
def freeNumber (taken : List String) (stem : String) : Nat → Nat → Nat
  | 0, n => n
  | fuel + 1, n =>
    if taken.contains (numberedStem stem n) then freeNumber taken stem fuel (n + 1) else n

/-- Name modules after their stems.  A stem that was seen before gets a number with which it is not
taken, and is taken from then on. -/
def nameModules (seen taken : List String) : List String → List String
  | [] => []
  | stem :: rest =>
    if seen.contains stem then
      let name := numberedStem stem (freeNumber taken stem (taken.length + 1) 2)
      name :: nameModules seen (name :: taken) rest
    else stem :: nameModules (stem :: seen) taken rest

/-- The names of the modules at some paths.  All stems are taken from the start, so a name with a
number is never the stem of another module. -/
def moduleNames (paths : List String) : List String :=
  nameModules [] (paths.map moduleStem) (paths.map moduleStem)

/-! ## Languages -/

namespace Source

/-- The language of a file whose name has these parts between its dots, the last part first.  Types
are declared for code (`d` before the last part), and with `ts` also for files of another kind (`d`
before that kind).  What is not known otherwise is read as declarations. -/
def Language.ofParts : List String → Language
  | [] | [_] | [_, ""] => .declarations
  | kind :: before =>
    if ["js", "mjs", "cjs", "jsx"].contains kind then .untyped
    else if kind == "ts" then if (before.take 2).contains "d" then .declarations else .typed
    else if ["mts", "cts"].contains kind then
      if before.head? == some "d" then .declarations else .typed
    else if kind == "tsx" then .typed
    else .declarations

/-- The language of a file, by its name. -/
def Language.ofPath (path : String) : Language :=
  .ofParts ((fileName path).splitOn ".").reverse

end Source

end Interop
