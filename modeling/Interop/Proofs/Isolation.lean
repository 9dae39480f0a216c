import Interop.Proofs.Files
import Mathlib.Data.List.Perm.Subperm

/-!
# Libraries do not see one another

All libraries of a run are written in one session.  What one of them leaves behind has no effect on
the next: its log is empty, the place of diagnostics is moved before it is used, and a library asks
for its own imports alone.

* `Session.Peer` — two sessions in which one library is being written, and that differ in the place
  of diagnostics and in the imports of other libraries.
* `Session.Follows` — a session in which other libraries were written before.
* **`writeLibrary_isolated`** — a library comes out the same, whichever others were written before
  it, in whatever order, and whether or not they were given up.
-/

namespace Interop

namespace Session

/-! ## Imports of one library -/

lemma contains_imports (library x : Nat) (imports : List (Nat × Nat)) :
    imports.contains (library, x) = (importedBy library imports).contains x := by
  rw [Bool.eq_iff_iff]
  simp [importedBy]

/-- What the library being written imports next depends on what it imports already. -/
lemma importedBy_importsAfter_self (library x : Nat) (imports : List (Nat × Nat)) :
    importedBy library (importsAfter (some library) x imports) =
      if library != x && !(importedBy library imports).contains x then
        importedBy library imports ++ [x]
      else importedBy library imports := by
  simp only [importsAfter, contains_imports]
  split_ifs
  · simp [importedBy]
  · rfl

/-! ## Peers -/

/-- **Sessions in which a library is being written, but others were written before.** -/
structure Peer (library : Nat) (s t : Session) : Prop where
  kept : t = { s with imports := t.imports, position := t.position }
  importsOf : t.importsOf library = s.importsOf library
  current : s.current = some library

namespace Peer

variable {library : Nat} {s t : Session} {may : Failure → Prop}

lemma log_eq (h : Peer library s t) : t.log = s.log := by
  rw [h.kept]

lemma handedOver (h : Peer library s t) : Peer library s.handedOver t.handedOver := by
  obtain ⟨hkept, himports, hcurrent⟩ := h
  refine ⟨?_, himports, hcurrent⟩
  rw [hkept]
  rfl

/-- One step does the same to both. -/
lemma take (h : Peer library s t) (hplace : t.position = s.position) (step : Step) :
    (∃ failure, s.take step = .error failure ∧ t.take step = .error failure) ∨
      ∃ s' t', s.take step = .ok s' ∧ t.take step = .ok t' ∧ Peer library s' t' ∧
        t'.position = s'.position := by
  obtain ⟨imports, rfl⟩ : ∃ imports, t = { s with imports } :=
    ⟨t.imports, h.kept.trans (by rw [hplace])⟩
  have himports : importedBy library imports = s.importsOf library := h.importsOf
  have hcurrent := h.current
  cases step with
  | report d =>
      simp only [Session.take]
      cases s.log.add d with
      | error failure => exact Or.inl ⟨failure, rfl, rfl⟩
      | ok log => exact Or.inr ⟨_, _, rfl, rfl, ⟨rfl, himports, hcurrent⟩, rfl⟩
  | refer x =>
      refine Or.inr ⟨_, _, rfl, rfl, ⟨rfl, ?_, hcurrent⟩, rfl⟩
      show importedBy library (importsAfter s.current x imports) =
        importedBy library (importsAfter s.current x s.imports)
      rw [hcurrent, importedBy_importsAfter_self, importedBy_importsAfter_self, himports]
      rfl
  | pointAt span => exact Or.inr ⟨_, _, rfl, rfl, ⟨rfl, himports, hcurrent⟩, rfl⟩

lemma replay (steps : List Step) : ∀ {s t : Session}, Peer library s t → t.position = s.position →
    (t.replay steps).1 = (s.replay steps).1 ∧
      Peer library (s.replay steps).2 (t.replay steps).2 := by
  induction steps with
  | nil => intro s t h _; exact ⟨rfl, h⟩
  | cons step rest ih =>
      intro s t h hplace
      simp only [Session.replay]
      rcases h.take hplace step with ⟨failure, hs, ht⟩ | ⟨s', t', hs, ht, h', hplace'⟩
      · rw [hs, ht]
        exact ⟨rfl, h⟩
      · rw [hs, ht]
        exact ih h' hplace'

/-- A computation with a trace does the same to both, if no place that was left behind matters. -/
lemma exec {α : Type} {w : Work α} (hw : w.Traced may s.table) (hanchor : w.Anchored)
    (hs : s.Settled may) (h : Peer library s t) :
    (w.exec t).1 = (w.exec s).1 ∧ Peer library (w.exec s).2 (w.exec t).2 := by
  -- first the place is made the same, then the trace is replayed in both
  obtain ⟨q, hq⟩ := hanchor s t.position
  obtain ⟨trace, -, hrun⟩ := hw (s.pointAt t.position) (hs.congr rfl rfl rfl rfl) rfl
  have hpeer : Peer library (s.pointAt t.position) t := ⟨h.kept, h.importsOf, h.current⟩
  have hview : t.view = (s.pointAt t.position).view := by
    rw [h.kept]
    rfl
  obtain ⟨hout, hafter⟩ := hpeer.replay trace.steps rfl
  have hsame : (w.exec t).1 = (w.exec (s.pointAt t.position)).1 ∧
      Peer library (w.exec (s.pointAt t.position)).2 (w.exec t).2 := by
    rw [hrun t hview, hrun _ rfl]
    simp only [Trace.replay]
    rcases ht : t.replay trace.steps with ⟨_ | _, u⟩ <;>
      rcases hp : (s.pointAt t.position).replay trace.steps with ⟨_ | _, v⟩ <;>
        simp_all
  rw [hq] at hsame
  obtain ⟨hout', hkept, himports, hcurrent⟩ := hsame
  exact ⟨hout', hkept, himports, hcurrent⟩

end Peer

end Session

/-! ## Libraries one after another -/

variable {may : Failure → Prop}

/-- A file comes out the same in both, and so do the next ones. -/
lemma filesItems_peer {library : Nat} : ∀ (files : List CollectedFile) {s t : Session},
    s.Settled may → Session.Peer library s t →
      ((filesItems files).run t).1 = ((filesItems files).run s).1 ∧
        Session.Peer library ((filesItems files).run s).2 ((filesItems files).run t).2
  | [], _, _, _, h => ⟨rfl, h⟩
  | f :: rest, s, t, hs, h => by
      obtain ⟨hout, hafter⟩ := h.exec f.items_traced f.items_anchored hs
      have hreports : f.reports t = f.reports s := by
        rw [CollectedFile.reports, CollectedFile.reports, hafter.log_eq]
      cases hitems : (f.items.exec s).1 with
      | error failure =>
          rw [filesItems_cons_error hitems, filesItems_cons_error (hout.trans hitems), hreports]
          exact ⟨rfl, hafter.handedOver⟩
      | ok items =>
          obtain ⟨hrest, hpeer⟩ :=
            filesItems_peer rest ((f.leaves_after hs).settled hs) hafter.handedOver
          have hrest' : ((filesItems rest).run (f.after t)).1 =
              ((filesItems rest).run (f.after s)).1 := hrest
          rw [filesItems_cons_ok hitems, filesItems_cons_ok (hout.trans hitems), hreports, hrest']
          exact ⟨rfl, hpeer⟩

lemma writeLibrary_peer {library : Nat} {s t : Session} (hs : s.Settled may)
    (h : Session.Peer library (s.enter library) (t.enter library)) (name : String)
    (files : List CollectedFile) :
    ((writeLibrary library name files).run t).1 = ((writeLibrary library name files).run s).1 := by
  obtain ⟨hout, hafter⟩ := filesItems_peer files (hs.enter library) h
  have hnames : ((filesItems files).run (t.enter library)).2.importNames library =
      ((filesItems files).run (s.enter library)).2.importNames library := by
    rw [Session.importNames, Session.importNames, hafter.importsOf, hafter.kept]
    rfl
  rw [writeLibrary_run, writeLibrary_run]
  simp only [finishLibrary, hout, hnames]

namespace Session

/-- **A session in which other libraries were written before.** -/
def Follows (s t : Session) : Prop :=
  t = { s with current := t.current, imports := t.imports, position := t.position }

lemma Follows.settled {s t : Session} (h : s.Follows t) (hs : s.Settled may) : t.Settled may := by
  rw [h]
  exact hs.congr rfl rfl rfl rfl

/-- Writing one more library leaves such a session, and only that library's imports are new. -/
lemma Follows.writeLibrary {s t : Session} (h : s.Follows t) (hs : s.Settled may)
    (hentries : s.log.entries = []) (library : Nat) (name : String) (files : List CollectedFile) :
    s.Follows ((writeLibrary library name files).run t).2 ∧
      ∀ other, other ≠ library →
        ((Interop.writeLibrary library name files).run t).2.importsOf other =
          t.importsOf other := by
  have hlog : t.log = s.log := by rw [h]
  have hleaves := writeLibrary_leaves library name files (h.settled hs)
  have hentries' : ((Interop.writeLibrary library name files).run t).2.log.entries = [] := by
    rw [writeLibrary_run]
    exact filesItems_entries files ((congrArg Log.entries hlog).trans hentries)
  generalize ((Interop.writeLibrary library name files).run t).2 = u at hleaves hentries' ⊢
  have hlog' : u.log = s.log := by
    have hmode : u.log.mode = s.log.mode := hleaves.mode.trans (congrArg Log.mode hlog)
    exact Log.eq_of_entries hmode (hentries'.trans hentries.symm)
  refine ⟨?_, fun other hother => hleaves.others other ?_⟩
  · calc u = (t.enter library).rewrite u.log u.imports u.position := hleaves.kept
      _ = _ := by rw [h, hlog', hleaves.current]; rfl
  · exact fun hsome => hother (Option.some.inj hsome).symm

/-- **A library comes out as if it were written first**, as long as it was not written before. -/
lemma Follows.isolated {s t : Session} (h : s.Follows t) (hs : s.Settled may) {library : Nat}
    (himports : t.importsOf library = s.importsOf library) (name : String)
    (files : List CollectedFile) :
    ((Interop.writeLibrary library name files).run t).1 =
      ((Interop.writeLibrary library name files).run s).1 := by
  refine writeLibrary_peer hs ⟨?_, himports, rfl⟩ name files
  rw [h]
  rfl

end Session

/-- Write a library of a run, given with its number. -/
def writeNumbered (unit : LibraryPlan × Nat) : StateM Session OutputLibrary :=
  writeLibrary unit.2 unit.1.name unit.1.files

/-- The libraries of a run are written in the order of their numbers. -/
lemma writeLibraries_eq : ∀ (plans : List LibraryPlan) (first : Nat),
    writeLibraries first plans = (plans.zipIdx first).mapM writeNumbered
  | [], _ => by
      rw [List.zipIdx_nil, List.mapM_nil]
      rfl
  | plan :: plans, first => by
      rw [List.zipIdx_cons, List.mapM_cons, ← writeLibraries_eq plans (first + 1)]
      rfl

/-- Libraries with different numbers, one after another. -/
lemma mapM_writeNumbered {s : Session} (hs : s.Settled may) (hentries : s.log.entries = []) :
    ∀ (order : List (LibraryPlan × Nat)) {t : Session}, s.Follows t →
      (order.map (·.2)).Nodup → (∀ unit ∈ order, t.importsOf unit.2 = s.importsOf unit.2) →
        ((order.mapM writeNumbered).run t).1 = order.map fun unit => ((writeNumbered unit).run s).1
  | [], _, _, _, _ => by
      rw [List.mapM_nil]
      rfl
  | unit :: rest, t, h, hnodup, himports => by
      obtain ⟨hnew, hnodup⟩ := List.nodup_cons.mp hnodup
      obtain ⟨hfollows, hothers⟩ := h.writeLibrary hs hentries unit.2 unit.1.name unit.1.files
      have hfirst : ((writeNumbered unit).run t).1 = ((writeNumbered unit).run s).1 :=
        h.isolated hs (himports unit (by simp)) unit.1.name unit.1.files
      have hrest := mapM_writeNumbered hs hentries rest hfollows hnodup ?_
      · have hrun : (((unit :: rest).mapM writeNumbered).run t).1 =
            ((writeNumbered unit).run t).1 ::
              ((rest.mapM writeNumbered).run ((writeNumbered unit).run t).2).1 := by
          rw [List.mapM_cons]
          rfl
        rw [hrun, hfirst]
        exact congrArg _ hrest
      · intro other hother
        have hne : other.2 ≠ unit.2 := by
          intro he
          exact hnew (List.mem_map.mpr ⟨other, hother, he⟩)
        rw [hothers other.2 hne]
        exact himports other (by simp [hother])

/-- All libraries of a run, each written as if it were the only one. -/
lemma writeLibraries_run {s : Session} (hs : s.Settled may) (hentries : s.log.entries = [])
    (plans : List LibraryPlan) : ((writeLibraries 0 plans).run s).1 =
      plans.zipIdx.map fun unit => ((writeNumbered unit).run s).1 := by
  rw [writeLibraries_eq]
  refine mapM_writeNumbered hs hentries _ rfl ?_ fun _ _ => rfl
  rw [List.zipIdx_map_snd]
  exact List.nodup_range'

/-- **Libraries are isolated.**  Preparing a run succeeds, and whichever of its libraries are
written then, in whatever order, each comes out as if it were the only one.  So it does in the run
itself, which writes them all in the order of their numbers. -/
theorem writeLibrary_isolated (table : SymbolTable) (options : GenerationOptions)
    (plans : List LibraryPlan) :
    ∃ session, Session.prepare table options plans = .ok session ∧
      (∀ order : List (LibraryPlan × Nat), order.Subperm plans.zipIdx →
        ((order.mapM writeNumbered).run session).1 =
          order.map fun unit => ((writeNumbered unit).run session).1) ∧
      ((writeLibraries 0 plans).run session).1 =
        plans.zipIdx.map fun unit => ((writeNumbered unit).run session).1 := by
  obtain ⟨s, hready, hprepare⟩ := prepare_ready table options.policy options.merge plans
  have hs := hready.settled_any.inMode options.mode
  have hnumbers : (plans.zipIdx.map (·.2)).Nodup := by
    rw [List.zipIdx_map_snd]
    exact List.nodup_range'
  refine ⟨s.inMode options.mode, hprepare options.mode, ?_, ?_⟩
  · rintro order ⟨kept, hperm, hsub⟩
    exact mapM_writeNumbered hs hready.entries order rfl
      ((hperm.map _).nodup_iff.mp ((hsub.map _).nodup hnumbers)) fun _ _ => rfl
  · exact writeLibraries_run hs hready.entries plans

/-- Two libraries, of which the second refers to the first and is written before it. -/
theorem writeLibrary_isolated_second_first :
    let table : SymbolTable := ⟨#[
      { name := "A", kind := .klass, file := 0, path := ⟨["a", "A"], .type⟩ },
      { name := "x", kind := .variable, file := 1, path := ⟨["b", "x"], .value⟩,
        members := [⟨some "x", .property (.nominal 0 []) false true, false, Span.none⟩] }]⟩
    let first : LibraryPlan := ⟨"a", [⟨"a.d.ts", 0, []⟩]⟩
    let second : LibraryPlan := ⟨"b", [⟨"b.d.ts", 1, []⟩]⟩
    [(second, 1), (first, 0)].Subperm [first, second].zipIdx ∧
      ∃ session, Session.prepare table { mode := .failFast } [first, second] = .ok session ∧
        (([(second, 1), (first, 0)].mapM writeNumbered).run session).1 =
          [((writeNumbered (second, 1)).run session).1,
            ((writeNumbered (first, 0)).run session).1] := by
  intro table first second
  have horder : [(second, 1), (first, 0)].Subperm [first, second].zipIdx :=
    (List.Perm.swap (first, 0) (second, 1) []).subperm
  obtain ⟨session, hprepare, hisolated, -⟩ :=
    writeLibrary_isolated table { mode := .failFast } [first, second]
  exact ⟨horder, session, hprepare, hisolated _ horder⟩

end Interop
