import Interop.CommandLine.Run

/-!
# The program

The command on the files of the machine it runs on.
-/

namespace Interop

/-- The cause of an error that the machine numbers and words. -/
def numberedError (code : UInt32) (text : String) : FileError :=
  match code.toNat with
  | 2 => .notFound
  | 17 => .alreadyExists
  | 20 => .notDirectory
  | 21 => .isDirectory
  | 36 => .nameTooLong
  | n => .other (text ++ " (os error " ++ toString n ++ ")")

/-- The cause of an error that the machine reported. -/
def fileError : IO.Error → FileError
  | .noFileOrDirectory _ code text | .alreadyExists _ code text | .inappropriateType _ code text
  | .invalidArgument _ code text | .permissionDenied _ code text
  | .resourceExhausted _ code text | .noSuchThing _ code text | .otherError code text =>
    numberedError code text
  | error => .other (toString error)

/-- Do something with files, and say why it failed if it did. -/
def attempt {α : Type} (work : IO α) : IO (Except FileError α) := do
  try return .ok (← work)
  catch error => return .error (fileError error)

/-- Read a file, whose content may be no text. -/
def readMachineText (path : String) : IO (Except FileError String) := do
  match ← attempt (IO.FS.readBinFile path) with
  | .error error => return .error error
  | .ok content =>
    match String.fromUTF8? content with
    | some text => return .ok text
    | none => return .error .notText

instance : FileStore IO where
  readText := readMachineText
  makeDirectories path := if path.isEmpty then pure (.ok ()) else attempt (IO.FS.createDirAll path)
  writeText path text := attempt (IO.FS.writeFile path text)

end Interop

/-- Run the command and print what it says. -/
def main (arguments : List String) : IO UInt32 := do
  let outcome : Interop.Outcome ← Interop.runCommand arguments
  IO.print outcome.stdout
  IO.eprint outcome.stderr
  return outcome.code.toUInt32
