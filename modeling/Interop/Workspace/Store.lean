import Interop.Generation.Run

/-!
# Generating from files

The inputs of a run are files, and so are its output libraries.  All that is asked of the place where
files are kept is in `FileStore`, so a run can be on a disk or on a value.

* `generateFiles` — read the inputs, generate the libraries, and write them.
-/

namespace Interop

/-! ## Files -/

/-- Why something cannot be done with a file. -/
inductive FileError where
  | notFound
  | alreadyExists
  | notDirectory
  | isDirectory
  | nameTooLong
  /-- The content is no text. -/
  | notText
  /-- Any other cause, as it is worded. -/
  | other (text : String)
  deriving DecidableEq, Repr, Inhabited

/-- The wording of an error. -/
def FileError.message : FileError → String
  | .notFound => "No such file or directory (os error 2)"
  | .alreadyExists => "File exists (os error 17)"
  | .notDirectory => "Not a directory (os error 20)"
  | .isDirectory => "Is a directory (os error 21)"
  | .nameTooLong => "File name too long (os error 36)"
  | .notText => "stream did not contain valid UTF-8"
  | .other text => text

/-- A place where files are kept. -/
class FileStore (m : Type → Type) where
  /-- The text of a file. -/
  readText : String → m (Except FileError String)
  /-- Make a directory, and those around it, where they do not exist. -/
  makeDirectories : String → m (Except FileError Unit)
  /-- Make a file with a text, or give a file a new text. -/
  writeText : String → String → m (Except FileError Unit)

/-- The path of a file in a directory. -/
def joinPath (directory file : String) : String :=
  match directory.toList.getLast? with
  | none | some '/' => directory ++ file
  | some _ => directory ++ "/" ++ file

/-! ## Runs -/

/-- Why a run ended without output. -/
inductive RunError where
  /-- A file cannot be read or written. -/
  | file (path : String) (error : FileError)
  /-- The inputs cannot be read as declarations. -/
  | rejected (rejection : Rejection)
  deriving DecidableEq, Repr

/-- The wording of a rejection. -/
def Rejection.message : Rejection → String
  | .malformed path => "parse error(s):\n" ++ path ++ ": unexpected syntax"
  | .inconsistent path => "semantic error(s):\n" ++ path ++ ": conflicting declarations"
  | .failed failure => failure.message

/-- The wording of an error. -/
def RunError.message : RunError → String
  | .file path error => path ++ ": " ++ error.message
  | .rejected rejection => rejection.message

section

variable {m : Type → Type} [Monad m]

/-- Carry an error about a file over to the run. -/
def onFile {α : Type} (path : String) (work : m (Except FileError α)) : ExceptT RunError m α :=
  ExceptT.mk do
    match ← work with
    | .ok a => return .ok a
    | .error error => return .error (.file path error)

variable [FileStore m]

/-- Read an input. -/
def readSource (path : String) : ExceptT RunError m SourceFile := do
  return ⟨path, ← onFile path (FileStore.readText path)⟩

/-- Write a library to its file in a directory. -/
def storeLibrary (directory : String) (library : OutputLibrary) : ExceptT RunError m Unit :=
  let path := joinPath directory library.file
  onFile path (FileStore.writeText path library.text)

/-- Write libraries to a directory, except those that were given up. -/
def storeLibraries (directory : String) (libraries : List OutputLibrary) :
    ExceptT RunError m Unit := do
  onFile directory (FileStore.makeDirectories directory)
  (libraries.filter (·.failure.isNone)).forM (storeLibrary directory)

/-- Generate libraries from files, and write them to a directory, if there is one.  Nothing is written
before all libraries are generated. -/
def generateFiles (paths : List String) (options : GenerationOptions)
    (directory : Option String) : ExceptT RunError m (List OutputLibrary) := do
  let files ← paths.mapM readSource
  match generate files options with
  | .error rejection => throw (.rejected rejection)
  | .ok libraries =>
    match directory with
    | some directory => storeLibraries directory libraries
    | none => pure ()
    return libraries

end

end Interop
