import Interop.Diagnostic.Basic

/-!
# The log of a run

Every diagnostic of a run goes through one log.  A diagnostic that is already in the log is not
recorded again, since the same type is often rendered more than once.

* `Log.add` — record a diagnostic, or refuse it when the run stops at the first one.
* `Log.sorted` — the entries by place, in report order within one place.
-/

namespace Interop

/-- What the first diagnostic does. -/
inductive ReportMode where
  /-- It is recorded, and the work goes on. -/
  | batch
  /-- It ends the work. -/
  | failFast
  deriving DecidableEq, Repr, Inhabited

/-- The diagnostics recorded so far, in report order. -/
structure Log where
  mode : ReportMode
  entries : List Diagnostic := []
  deriving DecidableEq, Repr, Inhabited

namespace Log

/-- Record a diagnostic.  One that is present already changes nothing. -/
def add (log : Log) (d : Diagnostic) : Except Failure Log :=
  if d ∈ log.entries then .ok log
  else match log.mode with
    | .failFast => .error (.aborted d)
    | .batch => .ok { log with entries := log.entries ++ [d] }

/-- The entries by place; entries of one place stay in report order. -/
def sorted (log : Log) : List Diagnostic :=
  log.entries.mergeSort fun a b => a.span.le b.span

/-- The log after its entries have been handed over. -/
def cleared (log : Log) : Log :=
  { log with entries := [] }

/-- The failure that stands for everything recorded, if anything was. -/
def outcome (log : Log) : Except Failure Unit :=
  if log.entries.isEmpty then .ok () else .error (.reported log.sorted)

end Log

end Interop
