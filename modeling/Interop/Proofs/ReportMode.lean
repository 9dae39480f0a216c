import Interop.Proofs.Isolation

/-!
# The two report modes agree

When nothing may be reported, the first diagnostic ends the work on a library.  Up to there the work
is the same as when diagnostics are recorded: both replay the same traces.

* `firstReport?` — the diagnostic that is reported first while the files of a library are written.
* `writeLibrary_modes` — one library in both modes.
* **`generate_modes`** — a run in both modes: libraries without a diagnostic are the same, and every
  other one is given up with the diagnostic that is reported first.
-/

namespace Interop

variable {may : Failure → Prop}

namespace Session

/-! ## Traces in both modes -/

/-- When diagnostics are recorded, no step fails, and the first diagnostic stays the first. -/
lemma replay_batch (steps : List Step) : ∀ {s : Session}, s.log.mode = .batch →
    (s.replay steps).1 = .ok () ∧ ∀ d, s.log.entries.head? = some d →
      (s.replay steps).2.log.entries.head? = some d := by
  induction steps with
  | nil => intro s _; exact ⟨rfl, fun _ h => h⟩
  | cons step rest ih =>
      intro s hmode
      cases step with
      | report e =>
          simp only [replay, take, Log.add, hmode]
          split_ifs with hmem
          · exact ih (s := { s with log := s.log }) hmode
          · obtain ⟨hok, hfirst⟩ :=
              ih (s := { s with log := { mode := .batch, entries := s.log.entries ++ [e] } }) rfl
            refine ⟨hok, fun d hd => hfirst d ?_⟩
            rw [List.head?_append, hd]
            rfl
      | refer library => exact ih (s := { s with
          imports := importsAfter s.current library s.imports }) hmode
      | pointAt span => exact ih (s := s.pointAt span) hmode

/-- **A trace in both modes.**  If it reports nothing, both modes do the same.  Otherwise what it
reports first ends it where nothing may be reported. -/
lemma replay_modes (steps : List Step) : ∀ {s : Session}, s.log.mode = .batch →
    s.log.entries = [] →
      ((s.replay steps).2.log.entries = [] ∧
        (s.inMode .failFast).replay steps = (.ok (), (s.replay steps).2.inMode .failFast)) ∨
      ∃ d u, (s.replay steps).2.log.entries.head? = some d ∧
        (s.inMode .failFast).replay steps = (.error (.aborted d), u) ∧ u.log.entries = [] := by
  induction steps with
  | nil => intro s _ hentries; exact Or.inl ⟨hentries, rfl⟩
  | cons step rest ih =>
      intro s hmode hentries
      cases step with
      | report d =>
          have hbatch : s.take (.report d) =
              .ok { s with log := { mode := .batch, entries := [d] } } := by
            simp [take, Log.add, hmode, hentries, Except.map]
          have hfail : (s.inMode .failFast).take (.report d) = .error (.aborted d) := by
            simp [take, Log.add, inMode, hentries, Except.map]
          refine Or.inr ⟨d, s.inMode .failFast, ?_, ?_, hentries⟩
          · simp only [replay, hbatch]
            exact (replay_batch rest rfl).2 d rfl
          · simp only [replay, hfail]
      | refer library => exact ih (s := { s with
          imports := importsAfter s.current library s.imports }) hmode hentries
      | pointAt span => exact ih (s := s.pointAt span) hmode hentries

end Session

/-- A computation with a trace in both modes. -/
lemma Work.Traced.exec_modes {α : Type} {w : Work α} {s : Session} (hw : w.Traced may s.table)
    (hs : s.Settled may) (hmode : s.log.mode = .batch) (hentries : s.log.entries = []) :
    ((w.exec s).2.log.entries = [] ∧
      w.exec (s.inMode .failFast) = ((w.exec s).1, (w.exec s).2.inMode .failFast)) ∨
    ∃ d u, (w.exec s).2.log.entries.head? = some d ∧
      w.exec (s.inMode .failFast) = (.error (.aborted d), u) ∧ u.log.entries = [] := by
  obtain ⟨t, -, hrun⟩ := hw s hs rfl
  have hbatch : w.exec s = (t.outcome, (s.replay t.steps).2) := by
    have hok := (Session.replay_batch t.steps hmode).1
    rw [hrun s rfl]
    simp only [Trace.replay]
    rcases hreplay : s.replay t.steps with ⟨_ | _, u⟩
    · rw [hreplay] at hok
      cases hok
    · rfl
  rw [hbatch, hrun (s.inMode .failFast) rfl]
  simp only [Trace.replay]
  rcases Session.replay_modes t.steps hmode hentries with ⟨hnone, hsame⟩ | ⟨d, u, hd, hfail, hu⟩
  · exact Or.inl ⟨hnone, by rw [hsame]⟩
  · exact Or.inr ⟨d, u, hd, by rw [hfail], hu⟩

/-! ## One library in both modes -/

/-- **The diagnostic that is reported first** while files are written, in the first of them that
reports any.  What a file reports is in the log, in the order of the reports, when its declarations
are done; a file that is given up is the last. -/
def firstReport? : List CollectedFile → Session → Option Diagnostic
  | [], _ => none
  | f :: rest, s =>
    match (f.items.exec s).2.log.entries.head?, (f.items.exec s).1 with
    | some d, _ => some d
    | none, .ok _ => firstReport? rest (f.after s)
    | none, .error _ => none

section

variable {f : CollectedFile} {s : Session}

lemma reports_eq_nil : f.reports s = [] ↔ (f.items.exec s).2.log.entries = [] := by
  rw [CollectedFile.reports, List.map_eq_nil_iff, ← List.length_eq_zero_iff, Log.sorted,
    List.length_mergeSort, List.length_eq_zero_iff]

lemma firstReport?_of_head {d : Diagnostic} (h : (f.items.exec s).2.log.entries.head? = some d)
    (rest : List CollectedFile) : firstReport? (f :: rest) s = some d := by
  simp only [firstReport?, h]

lemma firstReport?_of_ok (h : (f.items.exec s).2.log.entries = []) {items : List Item}
    (hitems : (f.items.exec s).1 = .ok items) (rest : List CollectedFile) :
    firstReport? (f :: rest) s = firstReport? rest (f.after s) := by
  simp only [firstReport?, h, List.head?_nil, hitems]

lemma firstReport?_of_error (h : (f.items.exec s).2.log.entries = []) {failure : Failure}
    (hitems : (f.items.exec s).1 = .error failure) (rest : List CollectedFile) :
    firstReport? (f :: rest) s = none := by
  simp only [firstReport?, h, List.head?_nil, hitems]

end

/-- What the work on files is, where nothing may be reported, when `first` is the first report. -/
def FilesAgree (files : List CollectedFile) (s : Session) : Option Diagnostic → Prop
  | none => ((filesItems files).run s).1.2 = [] ∧
      (filesItems files).run (s.inMode .failFast) =
        (((filesItems files).run s).1, ((filesItems files).run s).2.inMode .failFast)
  | some d => ((filesItems files).run s).1.2 ≠ [] ∧
      ((filesItems files).run (s.inMode .failFast)).1 = (.error (.aborted d), [])

/-- After a file of which nothing is reported, the rest decides. -/
lemma FilesAgree.cons {f : CollectedFile} {rest : List CollectedFile} {s : Session}
    {items : List Item} {first : Option Diagnostic} (hitems : (f.items.exec s).1 = .ok items)
    (hsame : f.items.exec (s.inMode .failFast) =
      ((f.items.exec s).1, (f.items.exec s).2.inMode .failFast))
    (hquiet : (f.items.exec s).2.log.entries = []) (h : FilesAgree rest (f.after s) first) :
    FilesAgree (f :: rest) s first := by
  have hreports : f.reports s = [] := reports_eq_nil.mpr hquiet
  have hreports' : f.reports (s.inMode .failFast) = [] := by
    rw [reports_eq_nil, hsame]
    exact hquiet
  have hafter : f.after (s.inMode .failFast) = (f.after s).inMode .failFast := by
    rw [CollectedFile.after, hsame]
    rfl
  have hitems' : (f.items.exec (s.inMode .failFast)).1 = .ok items := by rw [hsame, hitems]
  cases first with
  | none =>
      obtain ⟨hempty, hrest⟩ := h
      simp only [FilesAgree, filesItems_cons_ok hitems, filesItems_cons_ok hitems', hreports,
        hreports', hafter, hrest, hempty, List.append_nil, and_self]
  | some d =>
      obtain ⟨hne, hrest⟩ := h
      simp only [FilesAgree, filesItems_cons_ok hitems, filesItems_cons_ok hitems', hreports,
        hreports', hafter, hrest, List.nil_append]
      exact ⟨hne, rfl⟩

/-- **Files in both modes.** -/
lemma filesItems_modes : ∀ (files : List CollectedFile) {s : Session}, s.Settled may →
    s.log.mode = .batch → s.log.entries = [] → FilesAgree files s (firstReport? files s)
  | [], s, _, _, _ => ⟨rfl, rfl⟩
  | f :: rest, s, hs, hmode, hentries => by
      rcases Work.Traced.exec_modes f.items_traced hs hmode hentries with
        ⟨hquiet, hsame⟩ | ⟨d, u, hd, hfail, hu⟩
      · cases hitems : (f.items.exec s).1 with
        | ok items =>
            have hleaves := f.leaves_after hs
            have ih := filesItems_modes rest (hleaves.settled hs) (hleaves.mode.trans hmode) rfl
            rw [firstReport?_of_ok hquiet hitems]
            exact .cons hitems hsame hquiet ih
        | error failure =>
            have hitems' : (f.items.exec (s.inMode .failFast)).1 = .error failure := by
              rw [hsame, hitems]
            have hreports : f.reports s = [] := reports_eq_nil.mpr hquiet
            have hreports' : f.reports (s.inMode .failFast) = [] := by
              rw [reports_eq_nil, hsame]
              exact hquiet
            rw [firstReport?_of_error hquiet hitems]
            refine ⟨?_, ?_⟩
            · rw [filesItems_cons_error hitems]
              exact hreports
            · rw [filesItems_cons_error hitems, filesItems_cons_error hitems', hreports, hreports',
                CollectedFile.after, hsame]
              rfl
      · have hitems' : (f.items.exec (s.inMode .failFast)).1 = .error (.aborted d) := by rw [hfail]
        have hreports : f.reports s ≠ [] := by
          rw [ne_eq, reports_eq_nil]
          intro hnil
          rw [hnil] at hd
          cases hd
        have hreports' : f.reports (s.inMode .failFast) = [] := by
          rw [reports_eq_nil, hfail]
          exact hu
        rw [firstReport?_of_head hd]
        refine ⟨?_, by rw [filesItems_cons_error hitems', hreports']⟩
        cases hitems : (f.items.exec s).1 with
        | ok items =>
            rw [filesItems_cons_ok hitems]
            simp [hreports]
        | error failure =>
            rw [filesItems_cons_error hitems]
            exact hreports

/-- What one library of a run is in the two modes, when writing it begins in a session. -/
def ModesAgree (plan : LibraryPlan) (begun : Session) (batch failFast : OutputLibrary) : Prop :=
  (batch.diagnostics = [] → failFast = batch) ∧
    (batch.diagnostics ≠ [] → ∃ d, firstReport? plan.files begun = some d ∧
      failFast = ⟨plan.name, "", [], some (.aborted d)⟩)

/-- **A library in both modes**, from the same session. -/
lemma writeLibrary_modes (library : Nat) (plan : LibraryPlan) {s : Session} (hs : s.Settled may)
    (hmode : s.log.mode = .batch) (hentries : s.log.entries = []) :
    ModesAgree plan (s.enter library) ((writeLibrary library plan.name plan.files).run s).1
      ((writeLibrary library plan.name plan.files).run (s.inMode .failFast)).1 := by
  have hfiles := filesItems_modes plan.files (hs.enter library) hmode hentries
  have henter : (s.inMode .failFast).enter library = (s.enter library).inMode .failFast := rfl
  have hdiagnostics : ((writeLibrary library plan.name plan.files).run s).1.diagnostics =
      ((filesItems plan.files).run (s.enter library)).1.2 := by
    rw [writeLibrary_run]
    simp only [finishLibrary]
    cases ((filesItems plan.files).run (s.enter library)).1.1 <;> rfl
  unfold ModesAgree
  rw [hdiagnostics, writeLibrary_run, writeLibrary_run, henter]
  cases hfirst : firstReport? plan.files (s.enter library) with
  | none =>
      rw [hfirst] at hfiles
      refine ⟨fun _ => ?_, fun hne => absurd hfiles.1 hne⟩
      rw [hfiles.2]
      rfl
  | some d =>
      rw [hfirst] at hfiles
      refine ⟨fun hnil => absurd hnil hfiles.1, fun _ => ⟨d, rfl, ?_⟩⟩
      simp only [finishLibrary, hfiles.2]

/-! ## Runs in both modes -/

/-- Of several libraries, each is written in the session that those before it leave. -/
lemma writeLibraries_cons_run (first : Nat) (plan : LibraryPlan) (plans : List LibraryPlan)
    (s : Session) : (writeLibraries first (plan :: plans)).run s =
      let r := (writeLibrary first plan.name plan.files).run s
      (r.1 :: ((writeLibraries (first + 1) plans).run r.2).1,
        ((writeLibraries (first + 1) plans).run r.2).2) := rfl

/-- **Libraries in both modes.**  The run that reports nothing meets another session than the one
that records, since libraries are given up in it; that has no effect, as libraries are isolated. -/
lemma writeLibraries_modes {s : Session} (hs : s.Settled may) (hmode : s.log.mode = .batch)
    (hentries : s.log.entries = []) : ∀ (plans : List LibraryPlan) (first : Nat) {t u : Session},
      s.Follows t → (s.inMode .failFast).Follows u →
      (∀ i, first ≤ i → t.importsOf i = s.importsOf i ∧ u.importsOf i = s.importsOf i) →
        let batch := ((writeLibraries first plans).run t).1
        let failFast := ((writeLibraries first plans).run u).1
        batch.length = plans.length ∧ failFast.length = plans.length ∧
          ∀ (i : Nat) (plan : LibraryPlan) (a b : OutputLibrary), plans[i]? = some plan →
            batch[i]? = some a → failFast[i]? = some b →
              ModesAgree plan
                (((writeLibraries first (plans.take i)).run t).2.enter (first + i)) a b
  | [], first, t, u, _, _, _ => ⟨rfl, rfl, by simp⟩
  | plan :: plans, first, t, u, ht, hu, himports => by
      have hs' := hs.inMode .failFast
      obtain ⟨ht', htothers⟩ := ht.writeLibrary hs hentries first plan.name plan.files
      obtain ⟨hu', huothers⟩ := hu.writeLibrary hs' hentries first plan.name plan.files
      obtain ⟨hbatch, hfail, hrest⟩ := writeLibraries_modes hs hmode hentries plans (first + 1) ht'
        hu' (fun i hi => ⟨(htothers i (by omega)).trans (himports i (by omega)).1,
          (huothers i (by omega)).trans (himports i (by omega)).2⟩)
      simp only [writeLibraries_cons_run]
      refine ⟨by rw [List.length_cons, hbatch, List.length_cons],
        by rw [List.length_cons, hfail, List.length_cons], ?_⟩
      intro i p a b hp ha hb
      cases i with
      | zero =>
          obtain rfl := Option.some.inj hp
          obtain rfl := Option.some.inj ha
          obtain rfl := Option.some.inj hb
          -- the library that is given up comes out as it would right after this one
          have hfollows : (s.inMode .failFast).Follows (t.inMode .failFast) := by
            rw [ht]
            rfl
          have hlog : t.log = s.log := by rw [ht]
          have hisolated := hu.isolated hs' (himports first (Nat.le_refl _)).2 plan.name plan.files
          have hisolated' :=
            hfollows.isolated hs' (himports first (Nat.le_refl _)).1 plan.name plan.files
          have hmodes := writeLibrary_modes first plan (ht.settled hs) (hlog ▸ hmode)
            (hlog ▸ hentries)
          rw [hisolated'.trans hisolated.symm] at hmodes
          exact hmodes
      | succ i =>
          have h := hrest i p a b hp ha hb
          rw [show first + 1 + i = first + (i + 1) by omega] at h
          exact h

/-- **The two modes agree.**  A run in both modes is prepared alike and writes the same libraries.
One of which nothing is reported is the same in both; every other one is given up with the
diagnostic that is reported first when all of them are recorded. -/
theorem generate_modes (files : List SourceFile) (policy : UnionPolicy) (merge : Option String) :
    match files.mapM SourceFile.read with
    | .error rejection => ∀ mode, generate files ⟨mode, policy, merge⟩ = .error rejection
    | .ok programs =>
      let plans := (planRun merge files programs).libraries
      ∃ session batch failFast,
        Session.prepare (planRun merge files programs).table ⟨.batch, policy, merge⟩ plans =
          .ok session ∧
        generate files ⟨.batch, policy, merge⟩ = .ok batch ∧
        generate files ⟨.failFast, policy, merge⟩ = .ok failFast ∧
        batch.length = plans.length ∧ failFast.length = plans.length ∧
        ∀ (i : Nat) (plan : LibraryPlan) (a b : OutputLibrary), plans[i]? = some plan →
          batch[i]? = some a → failFast[i]? = some b →
            let begun := ((writeLibraries 0 (plans.take i)).run session).2.enter i
            (a.diagnostics = [] → b = a) ∧
              (a.diagnostics ≠ [] → ∃ d, firstReport? plan.files begun = some d ∧
                b = ⟨plan.name, "", [], some (.aborted d)⟩) := by
  cases hread : files.mapM SourceFile.read with
  | error rejection => exact fun mode => generate_error hread _
  | ok programs =>
      dsimp only
      obtain ⟨s, hready, hprepare⟩ :=
        prepare_ready (planRun merge files programs).table policy merge
          (planRun merge files programs).libraries
      have hs := hready.settled_any.inMode .batch
      obtain ⟨hbatch, hfail, hmodes⟩ := writeLibraries_modes hs rfl hready.entries
        (planRun merge files programs).libraries 0
        (t := s.inMode .batch) (u := s.inMode .failFast) rfl rfl fun _ _ => ⟨rfl, rfl⟩
      refine ⟨s.inMode .batch, _, _, hprepare .batch, generate_eq hread (hprepare .batch),
        generate_eq hread (hprepare .failFast), hbatch, hfail, ?_⟩
      intro i plan a b hplan ha hb
      have h := hmodes i plan a b hplan ha hb
      rw [Nat.zero_add] at h
      exact h

end Interop
