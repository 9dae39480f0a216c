import Interop.Session
import Mathlib.Tactic.Common

/-!
# Running computations

`Work.exec` runs a computation on a session, and the lemmas here say what it does for each way in
which computations are put together.  No other file looks inside the monad.
-/

namespace Interop

namespace Work

variable {α β : Type}

/-- The outcome of a computation and the session it leaves. -/
def exec (w : Work α) (s : Session) : Except Failure α × Session :=
  w.run.run s

/-- What follows an outcome: the next computation, or nothing after a failure. -/
def next (k : α → Work β) : Except Failure α × Session → Except Failure β × Session
  | (.ok a, s) => (k a).exec s
  | (.error failure, s) => (.error failure, s)

lemma exec_bind (w : Work α) (k : α → Work β) (s : Session) :
    (w >>= k).exec s = next k (w.exec s) := by
  simp only [exec, ExceptT.run_bind, StateT.run_bind]
  rcases w.run.run s with ⟨a | failure, s'⟩ <;> rfl

lemma exec_get_bind (k : Session → Work α) (s : Session) :
    ((get : Work Session) >>= k).exec s = (k s).exec s := rfl

@[simp] lemma exec_modify (f : Session → Session) (s : Session) :
    (modify f : Work Unit).exec s = (.ok (), f s) := rfl

lemma exec_within (enter leave : Session → Session) (w : Work α) (s : Session) :
    (within enter leave w).exec s = ((w.exec (enter s)).1, leave (w.exec (enter s)).2) := rfl

lemma exec_expanding (id : Nat) (w : Work α) (s : Session) : (expanding id w).exec s =
    ((w.exec (s.pushAlias id)).1, (w.exec (s.pushAlias id)).2.popAlias) := rfl

lemma exec_detached (w : Work α) (s : Session) :
    (detached w).exec s = ((w.exec s.detach).1, (w.exec s.detach).2.attach) := rfl

lemma exec_discard (w : Work α) (s : Session) :
    (discard w : Work Unit).exec s = next (fun _ => pure ()) (w.exec s) := by
  show (w >>= fun _ => pure PUnit.unit).exec s = _
  exact exec_bind w _ s

lemma exec_orElse (w : Work α) (k : Failure → Work α) (s : Session) :
    (tryCatch w k).exec s = match w.exec s with
      | (.ok a, t) => (.ok a, t)
      | (.error failure, t) => (k failure).exec t := by
  rcases hrun : w.exec s with ⟨failure | a, t⟩
  all_goals
    have hstate : StateT.run w s = _ := hrun
    simp only [exec, tryCatch, tryCatchThe, MonadExceptOf.tryCatch, ExceptT.tryCatch,
      ExceptT.run_mk, StateT.run_bind, hstate]
    rfl

lemma exec_table_bind (k : SymbolTable → Work α) (s : Session) :
    (Work.table >>= k).exec s = (k s.table).exec s := rfl

lemma exec_report (d : Diagnostic) (s : Session) :
    (report d).exec s = match s.log.add d with
      | .ok log => (.ok (), { s with log })
      | .error failure => (.error failure, s) := by
  unfold report
  rw [exec_get_bind]
  cases s.log.add d <;> rfl

/-- A filter is a loop that gathers what it keeps. -/
lemma filterM_eq_foldlM (f : α → Work Bool) (xs : List α) : xs.filterM f =
    (xs.foldlM (fun kept x => do return cond (← f x) (x :: kept) kept) []) >>=
      fun kept => Pure.pure kept.reverse := by
  have hgather : ∀ kept : List α, List.filterAuxM f xs kept =
      xs.foldlM (fun kept x => do return cond (← f x) (x :: kept) kept) kept := by
    induction xs with
    | nil => exact fun _ => rfl
    | cons x xs ih =>
        intro kept
        simp only [List.filterAuxM, List.foldlM_cons, bind_assoc, pure_bind, ih]
  exact congrArg (· >>= fun kept => Pure.pure kept.reverse) (hgather [])

end Work

end Interop
