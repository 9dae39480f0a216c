import Interop.CommandLine.Options
import Interop.Workspace.Store

/-!
# The command

What the command prints and the code it ends with.

* `runCommand` — the whole command, on any file store.
-/

namespace Interop

/-- What a command printed, and the code it ended with. -/
structure Outcome where
  code : UInt8 := 0
  stdout : String := ""
  stderr : String := ""
  deriving DecidableEq, Repr, Inhabited

/-! ## Help -/

/-- How the command is called. -/
def usageLine : String :=
  "Usage: facade [OPTIONS] <INPUTS>..."

/-- What the command does. -/
def aboutLine : String :=
  "Translate TypeScript declarations into Dart JS-interop facades"

/-- The options in few words. -/
def briefHelp : List String :=
  [aboutLine, "", usageLine, "",
    "Arguments:",
    "  <INPUTS>...  Input declaration files (`.d.ts`)", "",
    "Options:",
    "  -o, --output <OUTPUT>              Directory for the generated libraries. " ++
      "Printed to stdout when absent",
    "      --fail-fast                    " ++
      "Stop at the first diagnostic instead of collecting them all",
    "      --union-policy <UNION_POLICY>  " ++
      "How unions with several representable members are displayed " ++
      "[default: opaque] [possible values: opaque, first-concrete]",
    "      --merge [<MERGE>]              " ++
      "Translate all inputs into a single library with this name",
    "  -h, --help                         Print help (see more with '--help')"]

/-- The options in full. -/
def fullHelp : List String :=
  [aboutLine, "", usageLine, "",
    "Arguments:",
    "  <INPUTS>...",
    "          Input declaration files (`.d.ts`)", "",
    "Options:",
    "  -o, --output <OUTPUT>",
    "          Directory for the generated libraries. Printed to stdout when absent", "",
    "      --fail-fast",
    "          Stop at the first diagnostic instead of collecting them all", "",
    "      --union-policy <UNION_POLICY>",
    "          How unions with several representable members are displayed", "",
    "          Possible values:",
    "          - opaque:         Unions with several concrete members become `dynamic`",
    "          - first-concrete: Show the first concrete member", "          ",
    "          [default: opaque]", "",
    "      --merge [<MERGE>]",
    "          Translate all inputs into a single library with this name", "",
    "  -h, --help",
    "          Print help (see a summary with '-h')"]

/-- Lines of text, each with its end. -/
def printed (lines : List String) : String :=
  String.join (lines.map (· ++ "\n"))

/-! ## Reports -/

/-- What is said about a library: where it went, what was reported, and whether it is complete. -/
def libraryOutcome (written : Bool) (library : OutputLibrary) : Outcome :=
  let warnings := library.diagnostics.map fun d => "warning: " ++ d.message
  let (code, errors) : UInt8 × List String := match library.status with
    | .ok _ => (0, [])
    | .error failure => (1, ["error: " ++ library.name ++ ": " ++ failure.message])
  if library.failure.isSome then
    ⟨code, "", printed (["skipped " ++ library.file] ++ warnings ++ errors)⟩
  else if written then ⟨code, "", printed (["wrote " ++ library.file] ++ warnings ++ errors)⟩
  else ⟨code, printed ["// " ++ library.file] ++ library.text, printed (warnings ++ errors)⟩

/-- One outcome after another.  The first code that is not zero counts. -/
def Outcome.followedBy (first second : Outcome) : Outcome :=
  ⟨if first.code == 0 then second.code else first.code, first.stdout ++ second.stdout,
    first.stderr ++ second.stderr⟩

/-- What is said about several libraries. -/
def librariesOutcome (written : Bool) (libraries : List OutputLibrary) : Outcome :=
  (libraries.map (libraryOutcome written)).foldl Outcome.followedBy {}

/-- What is said when there is no run. -/
def Stop.outcome : Stop → Outcome
  | .help full => ⟨0, printed (if full then fullHelp else briefHelp), ""⟩
  | .misuse error => ⟨2, "", printed ["error: " ++ error.message, "", usageLine, "",
      "For more information, try '--help'."]⟩

/-! ## The command -/

/-- Run the command with some arguments. -/
def runCommand {m : Type → Type} [Monad m] [FileStore m] (arguments : List String) :
    m Outcome := do
  match readArguments arguments with
  | .error stop => return stop.outcome
  | .ok a =>
    match ← (generateFiles a.inputs a.options a.output).run with
    | .error error => return ⟨1, "", printed ["error: " ++ error.message]⟩
    | .ok libraries => return librariesOutcome a.output.isSome libraries

end Interop
