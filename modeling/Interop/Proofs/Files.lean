import Interop.Proofs.Emission
import Interop.Proofs.Preparation

/-!
# What writing files leaves behind

Writing a library may end anywhere, also inside scopes and expansions.  All of these are undone, so
what it leaves behind is little: the library's own imports, an empty log, and the place of the last
diagnostic.  That place has no effect, since every symbol moves it before anything else is done.

* `Work.Anchored` — a computation for which the place that is left behind has no effect.
* `Session.Leaves` — what may differ after the work on a library.
* **`writeLibrary_leaves`** — writing a library leaves no more than that behind.
-/

namespace Interop

/-! ## Places that are left behind -/

namespace Work

variable {α β : Type}

/-- A computation that does the same wherever diagnostics have pointed before. -/
def Anchored (w : Work α) : Prop :=
  ∀ (s : Session) (p : Span), ∃ q, w.exec (s.pointAt p) = ((w.exec s).1, (w.exec s).2.pointAt q)

namespace Anchored

lemma pure (a : α) : Anchored (Pure.pure a) :=
  fun _ p => ⟨p, rfl⟩

lemma bind {w : Work α} {k : α → Work β} (hw : Anchored w) (hk : ∀ a, Anchored (k a)) :
    Anchored (w >>= k) := by
  intro s p
  obtain ⟨q, hq⟩ := hw s p
  rw [exec_bind, exec_bind, hq]
  rcases w.exec s with ⟨failure | a, t⟩
  · exact ⟨q, rfl⟩
  · exact hk a t q

lemma table_bind {k : SymbolTable → Work α} (hk : ∀ table, Anchored (k table)) :
    Anchored (Work.table >>= k) :=
  fun s p => hk s.table s p

/-- What moves the place first does not depend on it. -/
lemma pointAt_bind (span : Span) (k : Unit → Work α) :
    Anchored (modify (·.pointAt span) >>= k) := by
  intro s p
  refine ⟨((modify (·.pointAt span) >>= k).exec s).2.position, ?_⟩
  rw [exec_bind, exec_bind, exec_modify, exec_modify]
  rfl

lemma report (d : Diagnostic) : Anchored (Work.report d) := by
  intro s p
  refine ⟨p, ?_⟩
  rw [exec_report, exec_report]
  have hlog : (s.pointAt p).log = s.log := rfl
  rw [hlog]
  cases s.log.add d <;> rfl

lemma mapM {f : α → Work β} (h : ∀ x, Anchored (f x)) : ∀ xs : List α, Anchored (xs.mapM f)
  | [] => by
      rw [List.mapM_nil]
      exact pure []
  | x :: xs => by
      rw [List.mapM_cons]
      exact bind (h x) fun b => bind (mapM h xs) fun bs => pure (b :: bs)

lemma forM {f : α → Work PUnit} (h : ∀ x, Anchored (f x)) : ∀ xs : List α, Anchored (xs.forM f)
  | [] => pure PUnit.unit
  | x :: xs => bind (h x) fun _ => forM h xs

end Anchored

end Work

lemma scopeItems_anchored (levels file : Nat) (parent : Option Nat) :
    (scopeItems levels file parent).Anchored := by
  cases levels with
  | zero => exact .pure _
  | succ levels =>
      refine .table_bind fun table => .bind (.mapM (fun id => ?_) _) fun _ => .pure _
      cases table.get? id with
      | none => exact .pure _
      | some symbol => exact .pointAt_bind _ _

namespace CollectedFile

lemma items_anchored (f : CollectedFile) : f.items.Anchored :=
  .bind (.forM .report f.notes) fun _ => .table_bind fun _ => scopeItems_anchored _ _ _

/-- Writing the declarations of a file leaves a trace. -/
lemma items_traced {may : Failure → Prop} {table : SymbolTable} (f : CollectedFile) :
    Work.Traced may table f.items :=
  .bind (.forM fun d _ => .report d) fun _ => fileItems_traced f.file

end CollectedFile

/-! ## What is left behind -/

lemma Log.eq_of_entries {a b : Log} (mode : a.mode = b.mode) (entries : a.entries = b.entries) :
    a = b := by
  cases a
  cases b
  simp_all

namespace Session

/-- The libraries that a library imports, among all imports. -/
def importedBy (library : Nat) (imports : List (Nat × Nat)) : List Nat :=
  (imports.filter fun edge => edge.1 == library).map (·.2)

/-- Referring to a library adds an import to the library that is being written and to no other. -/
lemma importedBy_importsAfter {current : Option Nat} {other : Nat} (h : current ≠ some other)
    (library : Nat) (imports : List (Nat × Nat)) :
    importedBy other (importsAfter current library imports) = importedBy other imports := by
  cases current with
  | none => rfl
  | some importer =>
      have hne : (importer == other) = false := by
        simpa using fun e : importer = other => h (congrArg some e)
      simp only [importsAfter]
      split_ifs
      · simp [importedBy, hne]
      · rfl

/-- **What may differ after a library was worked on**: what is in the log, where diagnostics point,
and what that library imports. -/
structure Leaves (s t : Session) : Prop where
  kept : t = s.rewrite t.log t.imports t.position
  mode : t.log.mode = s.log.mode
  others : ∀ other, s.current ≠ some other → t.importsOf other = s.importsOf other

namespace Leaves

variable {s t u : Session} {may : Failure → Prop}

lemma refl (s : Session) : s.Leaves s :=
  ⟨rfl, rfl, fun _ _ => rfl⟩

lemma current (h : s.Leaves t) : t.current = s.current := by
  rw [h.kept]
  rfl

lemma trans (h : s.Leaves t) (k : t.Leaves u) : s.Leaves u where
  kept := by
    have hu := k.kept
    rw [h.kept] at hu
    exact hu
  mode := k.mode.trans h.mode
  others other hother := by
    rw [k.others other (h.current ▸ hother), h.others other hother]

lemma settled (h : s.Leaves t) (hs : s.Settled may) : t.Settled may := by
  rw [h.kept]
  exact hs.congr rfl rfl rfl rfl

lemma take {step : Step} (h : s.take step = .ok t) : s.Leaves t := by
  cases step with
  | report d =>
      simp only [Session.take] at h
      cases hlog : s.log.add d with
      | error failure => simp [hlog, Except.map] at h
      | ok log =>
          rw [hlog] at h
          obtain rfl := Except.ok.inj h
          exact ⟨rfl, Log.mode_add hlog, fun _ _ => rfl⟩
  | refer library =>
      obtain rfl := Except.ok.inj h
      exact ⟨rfl, rfl, fun other hother => importedBy_importsAfter hother library s.imports⟩
  | pointAt span =>
      obtain rfl := Except.ok.inj h
      exact ⟨rfl, rfl, fun _ _ => rfl⟩

lemma replay (steps : List Step) : ∀ s : Session, s.Leaves (s.replay steps).2 := by
  induction steps with
  | nil => exact refl
  | cons step rest ih =>
      intro s
      simp only [Session.replay]
      cases h : s.take step with
      | ok t => exact (take h).trans (ih t)
      | error failure => exact refl s

/-- What a computation with a trace leaves behind, whether it fails or not. -/
lemma exec {α : Type} {w : Work α} (hw : w.Traced may s.table) (hs : s.Settled may) :
    s.Leaves (w.exec s).2 := by
  obtain ⟨t, -, hrun⟩ := hw s hs rfl
  rw [hrun s rfl, t.replay_snd]
  exact replay t.steps s

end Leaves

/-- A session whose diagnostics have been handed over. -/
def handedOver (s : Session) : Session :=
  { s with log := s.log.cleared }

lemma leaves_handedOver (s : Session) : s.Leaves s.handedOver :=
  ⟨rfl, rfl, fun _ _ => rfl⟩

end Session

/-! ## Files and libraries -/

section

variable {may : Failure → Prop}

namespace CollectedFile

/-- What is reported while a file is written. -/
def reports (f : CollectedFile) (s : Session) : List FileDiagnostic :=
  (f.items.exec s).2.log.sorted.map fun d => ⟨f.path, d⟩

/-- The session that a file leaves. -/
def after (f : CollectedFile) (s : Session) : Session :=
  (f.items.exec s).2.handedOver

lemma leaves_after (f : CollectedFile) {s : Session} (hs : s.Settled may) : s.Leaves (f.after s) :=
  (Session.Leaves.exec f.items_traced hs).trans (Session.leaves_handedOver _)

lemma itemsAndReports_run (f : CollectedFile) (s : Session) :
    f.itemsAndReports.run s = (((f.items.exec s).1, f.reports s), f.after s) := rfl

end CollectedFile

/-! Writing several files goes on as long as none is given up. -/

lemma filesItems_cons_error {f : CollectedFile} {s : Session} {failure : Failure}
    (h : (f.items.exec s).1 = .error failure) (rest : List CollectedFile) :
    (filesItems (f :: rest)).run s = ((.error failure, f.reports s), f.after s) := by
  have hrun := f.itemsAndReports_run s
  rw [h] at hrun
  rw [filesItems, StateT.run_bind, hrun]
  rfl

lemma filesItems_cons_ok {f : CollectedFile} {s : Session} {items : List Item}
    (h : (f.items.exec s).1 = .ok items) (rest : List CollectedFile) :
    (filesItems (f :: rest)).run s =
      ((((filesItems rest).run (f.after s)).1.1.map (items ++ ·),
        f.reports s ++ ((filesItems rest).run (f.after s)).1.2),
        ((filesItems rest).run (f.after s)).2) := by
  have hrun := f.itemsAndReports_run s
  rw [h] at hrun
  rw [filesItems, StateT.run_bind, hrun]
  rfl

lemma filesItems_leaves : ∀ (files : List CollectedFile) {s : Session}, s.Settled may →
    s.Leaves ((filesItems files).run s).2
  | [], s, _ => .refl s
  | f :: rest, s, hs => by
      have hfile := f.leaves_after hs
      cases h : (f.items.exec s).1 with
      | error failure =>
          rw [filesItems_cons_error h]
          exact hfile
      | ok items =>
          rw [filesItems_cons_ok h]
          exact hfile.trans (filesItems_leaves rest (hfile.settled hs))

lemma filesItems_entries : ∀ (files : List CollectedFile) {s : Session}, s.log.entries = [] →
    ((filesItems files).run s).2.log.entries = []
  | [], _, hs => hs
  | f :: rest, s, _ => by
      cases h : (f.items.exec s).1 with
      | error failure =>
          rw [filesItems_cons_error h]
          rfl
      | ok items =>
          rw [filesItems_cons_ok h]
          exact filesItems_entries rest rfl

/-- What is made of the declarations of a library. -/
def finishLibrary (library : Nat) (name : String)
    (r : (Except Failure (List Item) × List FileDiagnostic) × Session) : OutputLibrary :=
  match r.1.1 with
  | .ok items => ⟨name, libraryText name (r.2.importNames library) items, r.1.2, none⟩
  | .error failure => ⟨name, "", r.1.2, some failure⟩

lemma writeLibrary_run (library : Nat) (name : String) (files : List CollectedFile)
    (s : Session) : (writeLibrary library name files).run s =
      (finishLibrary library name ((filesItems files).run (s.enter library)),
        ((filesItems files).run (s.enter library)).2) := by
  unfold writeLibrary finishLibrary
  rw [StateT.run_bind, StateT.run_modify, pure_bind, StateT.run_bind]
  rcases (filesItems files).run (s.enter library) with ⟨⟨failure | items, reports⟩, t⟩ <;> rfl

/-- **Writing a library leaves little behind**, also when it is given up. -/
theorem writeLibrary_leaves (library : Nat) (name : String) (files : List CollectedFile)
    {s : Session} (hs : s.Settled may) :
    (s.enter library).Leaves ((writeLibrary library name files).run s).2 := by
  rw [writeLibrary_run]
  exact filesItems_leaves files (hs.enter library)

end

end Interop
