import Interop.Name.Path
import Interop.Span

/-!
# Diagnostics and failures

A diagnostic says that something of the source could not be carried over; the output is still
usable.  A failure ends the work on one library.

* `Diagnostic.message`, `Failure.message` — the wording, which is part of the behaviour.
* `Fault` — the causes of a structural failure: requests that a consistent run never makes.
-/

namespace Interop

/-- Something of the source that the output cannot express. -/
inductive Diagnostic where
  /-- A construct with no counterpart in the target. -/
  | unsupported (span : Span) (construct : String)
  /-- A name that refers to nothing known. -/
  | unresolved (span : Span) (name : String)
  deriving DecidableEq, Repr, Inhabited

namespace Diagnostic

/-- Where the diagnostic points. -/
def span : Diagnostic → Span
  | .unsupported s _ => s
  | .unresolved s _ => s

/-- The wording of a diagnostic. -/
def message : Diagnostic → String
  | .unsupported s construct => s.text ++ ": unsupported construct: " ++ construct
  | .unresolved s name => s.text ++ ": cannot resolve `" ++ name ++ "`"

end Diagnostic

/-! ## Failures -/

/-- Why a structural failure arose. -/
inductive Fault where
  /-- A name was asked for in a library that does not exist. -/
  | missingLibrary (library : Nat) (path : DeclPath)
  /-- A declaration was referred to whose file is in no library. -/
  | foreignFile (path : DeclPath)
  /-- An overload group without a member. -/
  | emptyGroup
  /-- An overload that is neither a function nor an index signature. -/
  | notCallable
  /-- A function without a call signature. -/
  | noSignature (name : String)
  /-- A variable without a type. -/
  | noType (name : String)
  deriving DecidableEq, Repr

/-- The wording of a fault. -/
def Fault.message : Fault → String
  | .missingLibrary library path => "no library " ++ toString library ++ " for `" ++ path.dotted ++ "`"
  | .foreignFile path => "`" ++ path.dotted ++ "` belongs to a file outside this run"
  | .emptyGroup => "empty overload group"
  | .notCallable => "overload key on a non-callable member"
  | .noSignature name => "function `" ++ name ++ "` has no signature"
  | .noType name => "variable `" ++ name ++ "` has no type"

/-- Why the work on a library ended early, or with something to report. -/
inductive Failure where
  /-- The run was asked for something inconsistent. -/
  | structural (span : Span) (fault : Fault)
  /-- The first diagnostic ends the work when nothing may be reported. -/
  | aborted (diagnostic : Diagnostic)
  /-- The work ended, and these diagnostics were reported. -/
  | reported (diagnostics : List Diagnostic)
  /-- Expanding an alias used up every step it was given. -/
  | exhausted
  deriving DecidableEq, Repr

/-- The wording of a failure. -/
def Failure.message : Failure → String
  | .structural s fault => s.text ++ ": structural error: " ++ fault.message
  | .aborted d => "aborted: " ++ d.message
  | .reported ds => toString ds.length ++ " diagnostic(s) reported"
  | .exhausted => "alias expansion does not end"

end Interop
