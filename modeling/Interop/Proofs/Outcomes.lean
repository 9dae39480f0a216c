import Interop.Proofs.Depth
import Interop.Proofs.Termination

/-!
# Computations that terminate

Rendering takes a bound on its depth, and is exhausted where the bound is too small.  It terminates
if there is a bound that is large enough; then all larger bounds lead to the same outcome and the
same session, and so there is one thing that rendering does.  Where definitions do not lead back to
their aliases it terminates in every session, also where a name is missing, a file is in no library
or the first report ends the run.

* `Work.TerminatesWith` — what a computation does with every bound that is large enough.
* `Composed.ne_exhausted` — names and reports are never exhausted.
* **`rendering_terminates`** — rendering, keys and merging do, where aliases are not recursive.
-/

namespace Interop

open Filter Relation

/-! ## One outcome -/

namespace Work

variable {α : Type} {w : Nat → Work α} {s : Session} {out out' : Except Failure α × Session}

/-- **A computation with a bound that terminates**, and what it does: the same with every bound that
is large enough, while with any other it is exhausted. -/
structure TerminatesWith (w : Nat → Work α) (s : Session) (out : Except Failure α × Session) :
    Prop where
  ended : out.1 ≠ .error .exhausted
  enough : ∀ᶠ bound in atTop, (w bound).exec s = out
  otherwise : ∀ bound, ((w bound).exec s).1 = .error .exhausted ∨ (w bound).exec s = out

namespace TerminatesWith

lemma unique (h : TerminatesWith w s out) (h' : TerminatesWith w s out') : out = out' := by
  obtain ⟨bound, hout, hout'⟩ := (h.enough.and h'.enough).exists
  exact hout.symm.trans hout'

/-- A bound that does not exhaust the computation is large enough. -/
lemma of_exec (hmono : ∀ {bound more : Nat}, bound ≤ more → (w bound).Refines (w more))
    (bound : Nat) (hended : ((w bound).exec s).1 ≠ .error .exhausted) :
    TerminatesWith w s ((w bound).exec s) where
  ended := hended
  enough := by
    filter_upwards [eventually_ge_atTop bound] with more hmore
    exact (hmono hmore s).resolve_left hended
  otherwise more := by
    rcases le_total bound more with hle | hle
    · exact Or.inr ((hmono hle s).resolve_left hended)
    · exact (hmono hle s).imp_right Eq.symm

/-- A bound with which the computation succeeds is large enough. -/
lemma of_ok (hmono : ∀ {bound more : Nat}, bound ≤ more → (w bound).Refines (w more)) {bound : Nat}
    {a : α} {t : Session} (hrun : (w bound).exec s = (.ok a, t)) :
    TerminatesWith w s (.ok a, t) := by
  have hended : ((w bound).exec s).1 ≠ .error .exhausted := by
    rw [hrun]
    exact fun hout => by cases hout
  exact hrun ▸ of_exec hmono bound hended

/-- What is done with one bound is done by every computation that terminates. -/
lemma exec_eq (h : TerminatesWith w s out) (bound : Nat)
    (hended : ((w bound).exec s).1 ≠ .error .exhausted) : (w bound).exec s = out :=
  (h.otherwise bound).resolve_left hended

end TerminatesWith

/-! ## Names and reports -/

/-- **A computation is exhausted only where it says so**: neither a name nor a report is. -/
lemma Composed.ne_exhausted {fails : Failure → Prop} {changes : (Session → Session) → Prop}
    (hfails : ¬ fails .exhausted) {w : Work α} (h : w.Composed fails changes) (s : Session) :
    (w.exec s).1 ≠ .error .exhausted := by
  induction h generalizing s with
  | pure | get | modify | refer => exact fun hout => by cases hout
  | @throw _ failure allowed =>
      intro hout
      obtain rfl : failure = .exhausted := Except.error.inj hout
      exact hfails allowed
  | @bind _ _ w k _ _ ihw ihk =>
      have hfirst := ihw s
      rw [exec_bind]
      rcases hrun : w.exec s with ⟨failure | a, t⟩
      · rw [hrun] at hfirst
        exact fun hout => hfirst (congrArg Except.error (Except.error.inj hout))
      · exact ihk a t
  | @orElse _ w k _ _ ihw ihk =>
      rw [exec_orElse]
      rcases w.exec s with ⟨failure | a, t⟩
      · exact ihk failure t
      · exact fun hout => by cases hout
  | report d =>
      rw [exec_report]
      cases hadd : s.log.add d with
      | ok log => exact fun hout => by cases hout
      | error failure =>
          obtain ⟨-, rfl⟩ := Log.add_error hadd
          exact fun hout => by cases hout
  | allocate path library =>
      cases hlib : s.library? library with
      | some lib =>
          rw [exec_allocate hlib]
          exact fun hout => by cases hout
      | none =>
          rw [exec_allocate_missing hlib]
          exact fun hout => by cases hout
  | inScope names _ ih => exact ih (s.pushScope names)
  | expanding id _ ih => exact ih (s.pushAlias id)
  | detached _ ih => exact ih s.detach

end Work

/-- All sessions over a table: names and reports may fail there in every way but one. -/
lemma Session.Steady.ofTable (table : SymbolTable) :
    Session.Steady table (·.table = table) (· ≠ .exhausted) := by
  have hyields : ∀ {α : Type} {w : Work α}, w.Composed (· ≠ .exhausted) Session.NoChange →
      w.Yields (·.table = table) (· ≠ .exhausted) fun _ => True := by
    intro α w hw s hs
    refine ⟨(hw.undisturbed s).table.trans hs, fun _ _ => trivial, fun failure hfailure => ?_⟩
    rintro rfl
    exact hw.ne_exhausted (fun h => h rfl) s hfailure
  exact ⟨fun _ hs => hs, fun _ _ _ _ hs => hs, fun d => hyields (.report d),
    fun id _ _ _ => hyields (.nameOf (fun _ _ hfailure => by cases hfailure) id)⟩

/-! ## Rendering -/

/-- What yields something in all sessions over a table and is not exhausted, terminates. -/
lemma Work.Yields.terminates {α : Type} {w : Nat → Work α} {s : Session} {Q : α → Prop}
    (hmono : ∀ {bound more : Nat}, bound ≤ more → (w bound).Refines (w more))
    (h : ∀ᶠ bound in atTop, (w bound).Yields
      (Session.Expanding (·.table = s.table) s.expanding) (· ≠ .exhausted) Q) :
    ∃ out, Work.TerminatesWith w s out := by
  obtain ⟨bound, hbound⟩ := h.exists
  refine ⟨_, .of_exec hmono bound fun hexhausted => ?_⟩
  exact (hbound s ⟨rfl, rfl⟩).2.2 _ hexhausted rfl

/-- **Rendering terminates where aliases are not recursive**, with or without parameters: in every
session, a type is rendered to an end, with all options that bind no type parameters; its key is
found; and it is merged into every set of types. -/
theorem rendering_terminates (s : Session) (hacyclic : ∀ id, ¬ TransGen s.table.Uses id id)
    (ty : Ty) :
    (∀ o : RenderOptions, o.bindings = none →
      ∃ out, Work.TerminatesWith (renderWithin · ty o) s out) ∧
    (∃ out, Work.TerminatesWith (fun depth => (renderWithin depth).key ty) s out) ∧
    ∀ d : DistinctTypes, ∃ out,
      Work.TerminatesWith (fun depth => d.add (renderWithin depth) depth ty) s out := by
  have hwf := SymbolTable.unfolds_wellFounded hacyclic
  have hsteady := Session.Steady.ofTable s.table
  have hfinishes := fun ty o => renderWithin_finishes hwf hsteady s.expanding ty o
  refine ⟨fun o ho => ?render, ?key, fun d => ?merge⟩
  case render =>
    exact Work.Yields.terminates (fun hle => renderWithin_refines hle ty o) (hfinishes ty o ho)
  case key =>
    refine Work.Yields.terminates (Q := fun _ => True)
      (fun hle => (renderWithin_refines hle).key ty) ?_
    filter_upwards [hfinishes ty .key rfl] with depth hdepth using hdepth.key hsteady
  case merge =>
    obtain ⟨parts, hparts⟩ := components_eventually hwf s.expanding ty
    refine Work.Yields.terminates (Q := fun d => ∀ member ∈ d.types, True)
      (fun hle => DistinctTypes.add_refines (renderWithin_refines hle) hle d ty) ?_
    filter_upwards [hparts, eventually_forall_mem fun part (_ : part ∈ parts) =>
      hfinishes part .key rfl] with depth hfound hkeys
    exact DistinctTypes.add_finishes hsteady (fun _ _ => trivial) hfound
      fun part hpart => ⟨trivial, hkeys part hpart⟩

/-- A session with an alias that has a parameter, and with none that is recursive. -/
def pairSession : Session where
  table := ⟨#[
    { name := "Pair", kind := .alias, file := 0, path := ⟨["Pair"], .type⟩, typeParams := ["T"],
      aliased := some (.tuple [.param "T", .param "T"]) }]⟩
  policy := .untyped
  log := { mode := .batch }

/-- A pair of pairs is rendered to an end, although its alias comes up while it is expanded. -/
theorem rendering_terminates_pair :
    (∀ id, ¬ TransGen pairSession.table.Uses id id) ∧ ∃ t,
      Work.TerminatesWith (renderWithin · (.nominal 0 [.nominal 0 [.primitive .string]]) {})
        pairSession (.ok ⟨"List<dynamic>", some "[Pair<string>, Pair<string>]"⟩, t) := by
  have hacyclic : ∀ id, ¬ TransGen pairSession.table.Uses id id := by
    refine SymbolTable.acyclic_of_lt fun {id other} huses => ?_
    obtain ⟨symbol, definition, hget, -, hdefinition, hother⟩ := huses
    rcases id with _ | id
    · obtain rfl := Option.some.inj hget
      obtain rfl := Option.some.inj hdefinition
      cases hother
    · cases hget
  refine ⟨hacyclic, ?_⟩
  obtain ⟨⟨outcome, t⟩, hout⟩ := (rendering_terminates pairSession hacyclic
    (.nominal 0 [.nominal 0 [.primitive .string]])).1 {} rfl
  have hrun : ((renderWithin 6 (.nominal 0 [.nominal 0 [.primitive .string]]) {}).exec
      pairSession).1 = .ok ⟨"List<dynamic>", some "[Pair<string>, Pair<string>]"⟩ := rfl
  have hsame := hout.exec_eq 6 (hrun ▸ fun hexhausted => by cases hexhausted)
  obtain rfl : outcome = .ok ⟨"List<dynamic>", some "[Pair<string>, Pair<string>]"⟩ :=
    (congrArg Prod.fst hsame).symm.trans hrun
  exact ⟨t, hout⟩

end Interop
