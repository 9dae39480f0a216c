import Interop.Proofs.Renumbering.Emission

/-!
# Libraries do not depend on numbers

The files of a library are written one after another, each with a log of its own.  Corresponding
files leave the same declarations and the same reports, so corresponding libraries come out the
same.  Whatever is reported for a file was noted when its types were lowered, or it is about an alias
that comes up in its own expansion.

* `Twins.Files` — files that correspond.
* `Twins.filesItems_agree` — corresponding files are written alike.
* **`Twins.writeLibrary_agree`** — corresponding libraries come out the same.
* `Twins.self` — a prepared session over a closed table and itself.
* **`Session.Ready.writeLibraries_expected`** — all that is reported in a run was to be expected.
-/

namespace Interop

/-- **A diagnostic to be expected in a library**, since it is expected in one of its files. -/
def SymbolTable.ExpectsIn (t : SymbolTable) (files : List CollectedFile) (d : FileDiagnostic) : Prop :=
  ∃ f ∈ files, d.path = f.path ∧ t.Expects f.notes d.diagnostic

/-- Giving up a library over a diagnostic was to be expected. -/
def SymbolTable.ExpectsFailure (t : SymbolTable) (files : List CollectedFile)
    (failure : Failure) : Prop :=
  ∀ d, failure = .aborted d → ∃ f ∈ files, t.Expects f.notes d

namespace Twins

variable {r : Twins} {notes more : List Diagnostic}

/-- Files that correspond. -/
structure Files (r : Twins) (f f' : CollectedFile) : Prop where
  path : f'.path = f.path
  file : f'.file = r.ρ.file f.file
  notes : f'.notes = f.notes

lemma items_agree {f f' : CollectedFile} (h : r.Files f f') :
    r.Agree f.notes f.items f'.items (· = ·) := by
  unfold CollectedFile.items
  rw [h.notes, h.file]
  exact .bind (.forM fun d hd => .report (Or.inl hd)) fun _ _ _ => fileItems_agree f.file

/-- While nothing is in the log, it does not matter what is expected. -/
lemma Alike.expecting {s s' : Session} (h : r.Alike notes s s') (hentries : s.log.entries = []) :
    r.Alike more s s' :=
  { h with entries := fun d hd => by rw [hentries] at hd; cases hd }

lemma Alike.handedOver {s s' : Session} (h : r.Alike notes s s') :
    r.Alike more s.handedOver s'.handedOver :=
  { h with
    names := h.names.trans ⟨rfl, rfl, rfl, rfl⟩
    names_right := h.names_right.trans ⟨rfl, rfl, rfl, rfl⟩
    log := congrArg Log.cleared h.log
    entries := fun _ hd => by cases hd }

/-- **Corresponding files are written alike**, up to the first on which the work is given up. -/
lemma filesItems_agree {files files' : List CollectedFile} (hfiles : List.Forall₂ r.Files files files') :
    ∀ {s s' : Session}, r.Alike notes s s' → s.log.entries = [] →
      ((filesItems files').run s').1 = ((filesItems files).run s).1 ∧
        r.Alike notes ((filesItems files).run s).2 ((filesItems files').run s').2 ∧
        (∀ d ∈ ((filesItems files).run s).1.2, r.left.table.ExpectsIn files d) ∧
        ∀ failure, ((filesItems files).run s).1.1 = .error failure →
          r.left.table.ExpectsFailure files failure := by
  induction hfiles with
  | nil =>
      intro s s' h _
      refine ⟨rfl, h, fun d hd => ?_, fun failure hfailure => ?_⟩
      · cases hd
      · cases hfailure
  | @cons f f' rest rest' hf hrest ih =>
      intro s s' h hentries
      obtain ⟨hout, halike⟩ := items_agree hf s s' (h.expecting hentries)
      have hreports : f'.reports s' = f.reports s := by
        rw [CollectedFile.reports, CollectedFile.reports, halike.log, hf.path]
      have hexpected : ∀ d ∈ f.reports s, r.left.table.ExpectsIn (f :: rest) d := by
        intro d hd
        obtain ⟨e, he, rfl⟩ := List.mem_map.mp hd
        exact ⟨f, List.mem_cons_self, rfl, halike.entries e (List.mem_mergeSort.mp he)⟩
      cases hitems : (f.items.exec s).1 with
      | error failure =>
          rw [hitems] at hout
          obtain ⟨hitems', hexpects⟩ := hout.of_error
          rw [filesItems_cons_error hitems, filesItems_cons_error hitems', hreports]
          refine ⟨rfl, halike.handedOver, hexpected, fun other hother => ?_⟩
          obtain rfl := Except.error.inj hother
          exact fun d hd => ⟨f, List.mem_cons_self, hexpects d hd⟩
      | ok items =>
          rw [hitems] at hout
          obtain ⟨_, hitems', rfl⟩ := hout.of_ok
          have hafter : r.Alike notes (f.after s) (f'.after s') := halike.handedOver
          obtain ⟨hsame, hleft, hmore, hfailures⟩ := ih hafter rfl
          rw [filesItems_cons_ok hitems, filesItems_cons_ok hitems', hreports, hsame]
          refine ⟨rfl, hleft, fun d hd => ?_, fun failure hfailure d hd => ?_⟩
          · rcases List.mem_append.mp hd with hd | hd
            · exact hexpected d hd
            · obtain ⟨g, hg, hpath, hexpects⟩ := hmore d hd
              exact ⟨g, List.mem_cons_of_mem _ hg, hpath, hexpects⟩
          · cases hout : ((filesItems rest).run (f.after s)).1.1 with
            | ok others => simp [hout, Except.map] at hfailure
            | error other =>
                simp only [hout, Except.map, Except.error.injEq] at hfailure
                obtain ⟨g, hg, hexpects⟩ := hfailures other hout d (hfailure.trans hd)
                exact ⟨g, List.mem_cons_of_mem _ hg, hexpects⟩

/-- Corresponding libraries import corresponding ones, which have the same names. -/
lemma Alike.importNames {s s' : Session} (h : r.Alike notes s s') (library : Nat) :
    s'.importNames (r.ρ.library library) = s.importNames library := by
  have himports : s'.importsOf (r.ρ.library library) =
      (s.importsOf library).map r.ρ.library := by
    have htest : (fun edge : Nat × Nat => edge.1 == r.ρ.library library) ∘
        Prod.map r.ρ.library r.ρ.library = fun edge => edge.1 == library := by
      funext edge
      rw [Bool.eq_iff_iff]
      simp [r.ρ.library_injective.eq_iff]
    simp only [Session.importsOf, h.imports, List.filter_map, htest, List.map_map]
    rfl
  have hname : ∀ id, (s'.library? (r.ρ.library id)).map (·.name) = (s.library? id).map (·.name) := by
    intro id
    rw [Session.library?, Session.library?, h.names.libraries, h.names_right.libraries]
    exact r.library_name id
  simp only [Session.importNames, himports, List.filterMap_map, Function.comp_def, hname]

lemma Alike.enter {s s' : Session} (h : r.Alike notes s s') (library : Nat) :
    r.Alike notes (s.enter library) (s'.enter (r.ρ.library library)) :=
  { h with
    names := h.names.trans ⟨rfl, rfl, rfl, rfl⟩
    names_right := h.names_right.trans ⟨rfl, rfl, rfl, rfl⟩
    current := rfl }

/-- **Corresponding libraries come out the same**, and what is reported was to be expected. -/
theorem writeLibrary_agree {files files' : List CollectedFile}
    (hfiles : List.Forall₂ r.Files files files') {s s' : Session} (h : r.Alike notes s s')
    (hentries : s.log.entries = []) (library : Nat) (name : String) :
    ((writeLibrary (r.ρ.library library) name files').run s').1 =
        ((writeLibrary library name files).run s).1 ∧
      (∀ d ∈ ((writeLibrary library name files).run s).1.diagnostics,
        r.left.table.ExpectsIn files d) ∧
      ∀ failure, ((writeLibrary library name files).run s).1.failure = some failure →
        r.left.table.ExpectsFailure files failure := by
  obtain ⟨hsame, halike, hexpected, hfailures⟩ :=
    filesItems_agree hfiles (h.enter library) hentries
  rw [writeLibrary_run, writeLibrary_run]
  simp only [finishLibrary, hsame, halike.importNames]
  cases hout : ((filesItems files).run (s.enter library)).1.1 with
  | ok items => exact ⟨trivial, hexpected, fun _ hfailure => by cases hfailure⟩
  | error failure =>
      refine ⟨trivial, hexpected, fun other hother => ?_⟩
      obtain rfl := Option.some.inj hother
      exact hfailures failure hout

/-! ## A session and itself -/

/-- A session over a closed table and itself. -/
def self (s : Session) (settled : s.Settled fun _ => True) (closed : s.table.Closed) : Twins where
  ρ := .same
  left := s
  right := s
  tables := .refl closed
  settled := settled
  settled_right := settled
  flatName _ _ _ _ := rfl
  libraryOf? _ := Option.map_id'.symm
  library_name _ := rfl

/-- In a session and itself the same has happened. -/
lemma Alike.self (notes : List Diagnostic) {s t : Session}
    (settled : s.Settled fun _ => True) (closed : s.table.Closed)
    (h : s.SameNames t) (hentries : t.log.entries = []) :
    (Twins.self s settled closed).Alike notes t t where
  names := h
  names_right := h
  policy := rfl
  log := rfl
  entries d hd := by rw [hentries] at hd; cases hd
  current := Option.map_id'.symm
  imports := (List.map_id _).symm
  position := rfl
  scopes := rfl
  expanding := (List.map_id _).symm
  detachment := rfl

lemma Files.self (s : Session) (settled : s.Settled fun _ => True) (closed : s.table.Closed)
    (files : List CollectedFile) : List.Forall₂ (Twins.self s settled closed).Files files files :=
  List.forall₂_same.mpr fun _ _ => ⟨rfl, rfl, rfl⟩

end Twins

/-! ## The libraries of a run -/

section

variable {table : SymbolTable} {plans : List LibraryPlan} {s : Session}

/-- Every library of a run comes out as if it were the only one. -/
lemma Session.Ready.writeLibraries_eq (h : s.Ready table plans) :
    ((writeLibraries 0 plans).run s).1 =
      plans.zipIdx.map fun unit => ((writeNumbered unit).run s).1 := by
  have hnumbers : (plans.zipIdx.map (·.2)).Nodup := by
    rw [List.zipIdx_map_snd]
    exact List.nodup_range'
  rw [Interop.writeLibraries_eq]
  exact mapM_writeNumbered h.settled_any h.entries _ rfl hnumbers fun _ _ => rfl

/-- **All that is reported in a run over a closed table was to be expected.** -/
theorem Session.Ready.writeLibraries_expected (h : s.Ready table plans) (closed : table.Closed) :
    List.Forall₂ (fun library unit =>
        (∀ d ∈ unit.diagnostics, table.ExpectsIn library.files d) ∧
          ∀ failure, unit.failure = some failure → table.ExpectsFailure library.files failure)
      plans ((writeLibraries 0 plans).run s).1 := by
  have hclosed : s.table.Closed := h.table_eq ▸ closed
  rw [h.writeLibraries_eq, List.forall₂_map_right_iff]
  have hall : List.Forall₂ (fun plan (unit : LibraryPlan × Nat) => unit.1 = plan)
      plans plans.zipIdx := by
    rw [← List.forall₂_map_right_iff (R := fun plan unit => unit = plan), List.zipIdx_map_fst]
    exact List.forall₂_same.mpr fun _ _ => rfl
  refine hall.imp ?_
  rintro - ⟨plan, library⟩ rfl
  obtain ⟨-, hexpected⟩ := Twins.writeLibrary_agree
    (Twins.Files.self s h.settled_any hclosed plan.files)
    (Twins.Alike.self [] h.settled_any hclosed (.refl s) h.entries) h.entries library
    plan.name
  rwa [← h.table_eq]

end

end Interop
