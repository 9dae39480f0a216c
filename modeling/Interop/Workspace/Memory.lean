import Interop.Workspace.Store

/-!
# Files as a value

A workspace is a directory that is given in full: every file and directory below it.  Paths start
there; what lies outside does not exist.

* `Workspace.locate` — follow a path.
* `Workspace.readText`, `Workspace.makeDirectories`, `Workspace.writeText` — the operations of a file
  store.
-/

namespace Interop

/-- A place in a workspace: the names on the way from its top. -/
abbrev Location := List String

/-- What stands at a place. -/
inductive Entry where
  | directory
  | file (content : ByteArray)
  deriving Inhabited

/-- A directory with everything below it.  The top itself is not among the entries. -/
structure Workspace where
  entries : List (Location × Entry) := []
  deriving Inhabited

namespace Workspace

/-- What stands at a place. -/
def find? (w : Workspace) : Location → Option Entry
  | [] => some .directory
  | location => w.entries.lookup location

/-- Whether there is a directory at a place. -/
def isDirectory (w : Workspace) (location : Location) : Bool :=
  match w.find? location with
  | some .directory => true
  | _ => false

/-- The workspace with something at a place, in the place of what was there. -/
def put (w : Workspace) (location : Location) (entry : Entry) : Workspace :=
  ⟨w.entries.filter (fun e => e.1 != location) ++ [(location, entry)]⟩

/-! ## Paths -/

/-- How many bytes a name may have. -/
def nameLimit : Nat := 255

/-- One step along a path. -/
def step (location : Location) (part : String) : Except FileError Location :=
  if part == "" || part == "." then .ok location
  else if part == ".." then
    if location.isEmpty then .error .notFound else .ok location.dropLast
  else if part.utf8ByteSize > nameLimit then .error .nameTooLong
  else .ok (location ++ [part])

/-- Follow the parts of a path.  Each step starts from a directory. -/
def walk (w : Workspace) : Location → List String → Except FileError Location
  | location, [] => .ok location
  | location, part :: rest =>
    match w.find? location with
    | some .directory => do w.walk (← step location part) rest
    | some (.file _) => .error .notDirectory
    | none => .error .notFound

/-- Follow a path.  One that starts with a slash leads outside. -/
def locate (w : Workspace) (path : String) : Except FileError Location :=
  match path.splitOn "/" with
  | "" :: _ => .error .notFound
  | parts => w.walk [] parts

/-! ## Operations -/

/-- The text of a file. -/
def readText (w : Workspace) (path : String) : Except FileError String := do
  match w.find? (← w.locate path) with
  | none => throw .notFound
  | some .directory => throw .isDirectory
  | some (.file content) =>
    match String.fromUTF8? content with
    | some text => return text
    | none => throw .notText

/-- Make a file with a content, or give a file a new content. -/
def writeFile (w : Workspace) (path : String) (content : ByteArray) :
    Except FileError Workspace := do
  let location ← w.locate path
  if w.isDirectory location then throw .isDirectory
  else return w.put location (.file content)

/-- Make one directory, given by the parts of its path. -/
def makeDirectory (w : Workspace) (parts : List String) : Except FileError Workspace := do
  let location ← w.walk [] parts
  match w.find? location with
  | some _ => throw .alreadyExists
  | none => return w.put location .directory

/-- Whether the parts of a path lead to a directory. -/
def leadsToDirectory (w : Workspace) (parts : List String) : Bool :=
  match w.walk [] parts with
  | .ok location => w.isDirectory location
  | .error _ => false

/-- Make one directory, unless there is one already. -/
def ensureDirectory (w : Workspace) (parts : List String) : Except FileError Workspace :=
  match w.makeDirectory parts with
  | .ok made => .ok made
  | .error error => if w.leadsToDirectory parts then .ok w else .error error

/-- The outcome of an operation that changes nothing when it fails. -/
def orUnchanged (w : Workspace) : Except FileError Workspace → Except FileError Unit × Workspace
  | .ok changed => (.ok (), changed)
  | .error error => (.error error, w)

/-- Make a directory and those around it.  The directory is given by the parts of its path, and the
one around it by the names on the way there, the last one first.  What could be made stays, also when
something else could not. -/
def ensureDirectories (parts : List String) : (around : List String) → Workspace →
    Except FileError Unit × Workspace
  | [], w => w.orUnchanged (w.ensureDirectory parts)
  | name :: further, w =>
    match w.ensureDirectory parts with
    | .error .notFound =>
      match ensureDirectories (name :: further).reverse further w with
      | (.ok _, w) => w.orUnchanged (w.ensureDirectory parts)
      | failed => failed
    | result => w.orUnchanged result

/-- Make the directory at a path, and those around it.  A dot at the end of the path is no name, so
it has to be there already. -/
def makeDirectories (w : Workspace) (path : String) : Except FileError Unit × Workspace :=
  match path.splitOn "/" with
  | [""] => (.ok (), w)
  | "" :: _ => (.error .notFound, w)
  | parts =>
    ensureDirectories (parts.reverse.dropWhile (· == "")).reverse (pathParts path).reverse.tail w

instance : FileStore (StateM Workspace) where
  readText path := do return (← get).readText path
  makeDirectories path := modifyGet (·.makeDirectories path)
  writeText path text := modifyGet fun w => w.orUnchanged (w.writeFile path text.toUTF8)

/-! ## Contents -/

/-- The path to a place. -/
def pathTo (location : Location) : String :=
  "/".intercalate location

/-- The files with their contents. -/
def files (w : Workspace) : List (String × ByteArray) :=
  w.entries.filterMap fun (location, entry) => match entry with
    | .directory => none
    | .file content => some (pathTo location, content)

/-- Add a file with the directories around it. -/
def addFile (w : Workspace) (path : String) (content : ByteArray) : Workspace :=
  let (_, w) := w.makeDirectories (pathTo (path.splitOn "/").dropLast)
  (w.orUnchanged (w.writeFile path content)).2

end Workspace

end Interop
