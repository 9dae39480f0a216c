import Interop.Generation.Run

/-!
# Arguments

The arguments of the command are inputs and options in any order; after `--` there are only inputs.

* `readArguments` — what the arguments ask for.
-/

namespace Interop

/-- Why arguments cannot be understood. -/
inductive UsageError where
  /-- An option that does not exist, or a value for one that takes none. -/
  | unexpected (argument : String)
  | missingValue (option : String)
  | invalidValue (option value : String)
  | repeated (option : String)
  | noInputs
  deriving DecidableEq, Repr, Inhabited

/-- The wording of an error. -/
def UsageError.message : UsageError → String
  | .unexpected argument => "unexpected argument '" ++ argument ++ "' found"
  | .missingValue option => "a value is required for '" ++ option ++ "' but none was supplied"
  | .invalidValue option value => "invalid value '" ++ value ++ "' for '" ++ option ++ "'"
  | .repeated option => "the argument '" ++ option ++ "' cannot be used multiple times"
  | .noInputs => "the following required arguments were not provided:\n  <INPUTS>..."

/-- Why arguments are not read to their end. -/
inductive Stop where
  /-- The user asks how the command is used, in few words or in full. -/
  | help (full : Bool)
  | misuse (error : UsageError)
  deriving DecidableEq, Repr, Inhabited

/-- What the arguments ask for. -/
structure Arguments where
  inputs : List String := []
  /-- The directory that libraries are written to. -/
  output : Option String := none
  failFast : Bool := false
  policy : Option UnionPolicy := none
  merge : Option String := none
  deriving DecidableEq, Repr, Inhabited

namespace Arguments

/-- The options of the run. -/
def options (a : Arguments) : GenerationOptions :=
  ⟨if a.failFast then .failFast else .batch, a.policy.getD .untyped, a.merge⟩

/-- The name of the library that all inputs go into, where none is given. -/
def mergeDefault : String := "facade"

/-! ## Single options -/

/-- Add an input. -/
def addInput (a : Arguments) (path : String) : Except Stop Arguments :=
  if path.isEmpty then .error (.misuse (.invalidValue "<INPUTS>..." path))
  else .ok { a with inputs := a.inputs ++ [path] }

/-- Set the output directory. -/
def setOutput (a : Arguments) (path : String) : Except Stop Arguments :=
  if a.output.isSome then .error (.misuse (.repeated "--output <OUTPUT>"))
  else if path.isEmpty then .error (.misuse (.invalidValue "--output <OUTPUT>" path))
  else .ok { a with output := some path }

/-- Stop at the first diagnostic. -/
def setFailFast (a : Arguments) : Except Stop Arguments :=
  if a.failFast then .error (.misuse (.repeated "--fail-fast"))
  else .ok { a with failFast := true }

/-- Set the union policy. -/
def setPolicy (a : Arguments) (value : String) : Except Stop Arguments :=
  if a.policy.isSome then .error (.misuse (.repeated "--union-policy <UNION_POLICY>"))
  else match value with
    | "opaque" => .ok { a with policy := some .untyped }
    | "first-concrete" => .ok { a with policy := some .firstConcrete }
    | _ => .error (.misuse (.invalidValue "--union-policy <UNION_POLICY>" value))

/-- Set the name of the one library. -/
def setMerge (a : Arguments) (name : String) : Except Stop Arguments :=
  if a.merge.isSome then .error (.misuse (.repeated "--merge [<MERGE>]"))
  else .ok { a with merge := some name }

end Arguments

/-! ## Forms of arguments -/

/-- The form of an argument. -/
inductive ArgumentForm where
  /-- What ends the options. -/
  | escape
  /-- An option by its name, and the value after an equals sign. -/
  | long (name : String) (value : Option String)
  /-- An option by its letter, and what follows the letter. -/
  | short (letter : Char) (rest : String)
  /-- A value. -/
  | value
  deriving DecidableEq, Repr, Inhabited

/-- The form of an argument.  A single `-` is a value. -/
def ArgumentForm.of (argument : String) : ArgumentForm :=
  match argument.toList with
  | ['-', '-'] => .escape
  | '-' :: '-' :: cs =>
    match cs.dropWhile (· != '=') with
    | [] => .long (String.ofList cs) none
    | _ :: after => .long (String.ofList (cs.takeWhile (· != '='))) (some (String.ofList after))
  | '-' :: letter :: rest => .short letter (String.ofList rest)
  | _ => .value

/-- The value that is attached to a letter, without an equals sign in front. -/
def attachedValue (rest : String) : Option String :=
  match rest.toList with
  | [] => none
  | '=' :: value => some (String.ofList value)
  | _ => some rest

/-- The value of an option: what is attached to it, or the next argument, if it is a value.  Also
whether the next argument was taken. -/
def takeValue (attached : Option String) (rest : List String) : Option String × Bool :=
  match attached, rest with
  | some value, _ => (some value, false)
  | none, next :: _ =>
    if ArgumentForm.of next == .value then (some next, true) else (none, false)
  | none, [] => (none, false)

/-! ## All arguments -/

/-- An option that cannot do without a value. -/
def readValued (option : String) (set : String → Except Stop Arguments) :
    Option String × Bool → Except Stop (Arguments × Bool)
  | (some value, taken) => return (← set value, taken)
  | (none, _) => .error (.misuse (.missingValue option))

/-- Read an argument, of which those after it are known.  The result also says whether the next one was
taken as its value. -/
def readOption (a : Arguments) (argument : String) (rest : List String) :
    Except Stop (Arguments × Bool) :=
  match ArgumentForm.of argument with
  | .long "output" attached => readValued "--output <OUTPUT>" a.setOutput (takeValue attached rest)
  | .short 'o' attached =>
    readValued "--output <OUTPUT>" a.setOutput (takeValue (attachedValue attached) rest)
  | .long "union-policy" attached =>
    readValued "--union-policy <UNION_POLICY>" a.setPolicy (takeValue attached rest)
  | .long "merge" attached => do
    let (name, taken) := takeValue attached rest
    return (← a.setMerge (name.getD Arguments.mergeDefault), taken)
  | .long "fail-fast" none => return (← a.setFailFast, false)
  | .long "help" none => .error (.help true)
  | .short 'h' _ => .error (.help false)
  | .value => return (← a.addInput argument, false)
  | _ => .error (.misuse (.unexpected argument))

/-- Read arguments, given what is known from those before them, and whether the first one was taken by
the one before it. -/
def readFrom (a : Arguments) (taken : Bool) : List String → Except Stop Arguments
  | [] => .ok a
  | argument :: rest =>
    if taken then readFrom a false rest
    else if ArgumentForm.of argument == .escape then rest.foldlM Arguments.addInput a
    else match readOption a argument rest with
      | .ok (a, taken) => readFrom a taken rest
      | .error stop => .error stop

/-- Read all arguments.  There is at least one input. -/
def readArguments (arguments : List String) : Except Stop Arguments := do
  let a ← readFrom {} false arguments
  if a.inputs.isEmpty then throw (.misuse .noInputs) else return a

end Interop
