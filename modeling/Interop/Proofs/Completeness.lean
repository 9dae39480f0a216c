import Interop.Proofs.Defined
import Interop.Proofs.Files

/-!
# Runs do not fail in themselves

A failure is raised where a run is inconsistent: a symbol lacks what its kind needs, a file is in no
library, or a name is missing.  None of that happens to a run of files that are well formed.  The
table of a run is complete, all of its files go into libraries, and preparing names everything.

* `planLibraries_mem` — every file goes into a library.
* `planRun_settled` — a prepared run expects no failure but running out of steps.
* **`generate_failures`** — the failures of a run: none where diagnostics are recorded, and the
  first diagnostic where nothing may be reported.
-/

namespace Interop

/-! ## Files go into libraries -/

lemma addToPlans_mem (name : String) (f : CollectedFile) : ∀ plans : List LibraryPlan,
    (∃ plan ∈ addToPlans name f plans, f ∈ plan.files) ∧
      ∀ plan ∈ plans, ∀ g ∈ plan.files, ∃ plan' ∈ addToPlans name f plans, g ∈ plan'.files
  | [] => ⟨⟨⟨name, [f]⟩, by simp [addToPlans], by simp⟩, by simp⟩
  | plan :: plans => by
      obtain ⟨hnew, hold⟩ := addToPlans_mem name f plans
      simp only [addToPlans]
      split_ifs with hname
      · refine ⟨⟨_, List.mem_cons_self, by simp⟩, ?_⟩
        intro other hother g hg
        rcases List.mem_cons.mp hother with rfl | hother
        · exact ⟨_, List.mem_cons_self, List.mem_append_left _ hg⟩
        · exact ⟨other, List.mem_cons_of_mem _ hother, hg⟩
      · obtain ⟨plan', hplan', hf⟩ := hnew
        refine ⟨⟨plan', List.mem_cons_of_mem _ hplan', hf⟩, ?_⟩
        intro other hother g hg
        rcases List.mem_cons.mp hother with rfl | hother
        · exact ⟨other, List.mem_cons_self, hg⟩
        · obtain ⟨kept, hkept, hg⟩ := hold other hother g hg
          exact ⟨kept, List.mem_cons_of_mem _ hkept, hg⟩

/-- Every file goes into a library. -/
lemma planLibraries_mem (merge : Option String) (files : List (String × CollectedFile)) :
    ∀ entry ∈ files, ∃ plan ∈ planLibraries merge files, entry.2 ∈ plan.files := by
  have hfold : ∀ (files : List (String × CollectedFile)) (plans : List LibraryPlan)
      (g : CollectedFile),
      ((∃ plan ∈ plans, g ∈ plan.files) ∨ ∃ entry ∈ files, entry.2 = g) →
        ∃ plan ∈ files.foldl
            (fun plans entry => addToPlans (merge.getD entry.1) entry.2 plans) plans,
          g ∈ plan.files := by
    intro files
    induction files with
    | nil =>
        rintro plans g (h | ⟨entry, hentry, -⟩)
        · exact h
        · cases hentry
    | cons first rest ih =>
        rintro plans g (⟨plan, hplan, hg⟩ | ⟨entry, hentry, rfl⟩)
        · exact ih _ g (Or.inl ((addToPlans_mem _ first.2 plans).2 plan hplan g hg))
        · rcases List.mem_cons.mp hentry with rfl | hentry
          · exact ih _ _ (Or.inl (addToPlans_mem _ entry.2 plans).1)
          · exact ih _ _ (Or.inr ⟨entry, hentry, rfl⟩)
  exact fun entry hentry => hfold files [] entry.2 (Or.inr ⟨entry, hentry, rfl⟩)

lemma defineFiles_files : ∀ (files : List ReadFile) (c : Catalogue),
    (defineFiles c files).2.map (·.file) = files.map (·.place.file)
  | [], _ => rfl
  | f :: rest, _ => congrArg (f.place.file :: ·) (defineFiles_files rest _)

lemma length_collected (files : List ReadFile) : (collect files).2.length = files.length := by
  have hfiles := congrArg List.length (defineFiles_files files (declareFiles files))
  rwa [List.length_map, List.length_map] at hfiles

/-- The file of every symbol of an input is in a library. -/
lemma planRun_file (merge : Option String) (files : List SourceFile)
    (programs : List Source.Program) {id : Nat} {s : Symbol}
    (hs : (planRun merge files programs).table.get? id = some s)
    (hexternal : s.externalName = none) :
    ∃ plan ∈ (planRun merge files programs).libraries, ∃ f ∈ plan.files, f.file = s.file := by
  have hfile := (collect_complete (placeFiles files programs) id s hs).2 hexternal
  have hfiles := defineFiles_files (placeFiles files programs)
    (declareFiles (placeFiles files programs))
  rw [← hfiles] at hfile
  obtain ⟨f, hf, hsame⟩ := List.mem_map.mp hfile
  have hlength : (collect (placeFiles files programs)).2.length ≤
      ((placeFiles files programs).map (·.place.module)).length := by
    rw [List.length_map]
    exact Nat.le_of_eq (length_collected _)
  have hzip := List.map_snd_zip hlength
  have hmem : f ∈ (((placeFiles files programs).map (·.place.module)).zip
      (collect (placeFiles files programs)).2).map Prod.snd := by
    rw [hzip]
    exact hf
  obtain ⟨entry, hentry, rfl⟩ := List.mem_map.mp hmem
  obtain ⟨plan, hplan, hin⟩ := planLibraries_mem merge _ entry hentry
  exact ⟨plan, hplan, entry.2, hin, hsame⟩

/-- **A prepared run is consistent.**  Writing it may run out of steps, and nothing else is to be
expected. -/
lemma planRun_settled {merge : Option String} {files : List SourceFile}
    {programs : List Source.Program} {session : Session}
    (hready : session.Ready (planRun merge files programs).table
      (planRun merge files programs).libraries) :
    session.Settled (· = .exhausted) := by
  have hcomplete := collect_complete (placeFiles files programs)
  refine hready.settled rfl ?_ ?_ ?_
  · intro id s hs _ hexternal hfile
    obtain ⟨plan, hplan, f, hf, hsame⟩ := planRun_file merge files programs hs hexternal
    have hassigned := hready.assigned plan hplan f hf
    rw [hsame, hfile] at hassigned
    cases hassigned
  · intro id s hs hkind hempty
    have hhas := (hcomplete id s hs).1
    rw [hkind] at hhas
    exact absurd (List.isEmpty_iff.mp hempty) hhas
  · intro id s hs hkind hempty
    have hhas := (hcomplete id s hs).1
    rw [hkind] at hhas
    exact absurd (List.isEmpty_iff.mp hempty) hhas

/-! ## Failures -/

/-- A failure is to be expected, or it is a diagnostic where nothing may be reported. -/
def Accounted (may : Failure → Prop) (mode : ReportMode) (failure : Failure) : Prop :=
  may failure ∨ (mode = .failFast ∧ ∃ d, failure = .aborted d)

section

variable {may : Failure → Prop}

/-- Steps fail only with a diagnostic where nothing may be reported. -/
lemma Session.replay_error (steps : List Step) : ∀ {s : Session} {failure : Failure},
    (s.replay steps).1 = .error failure →
      s.log.mode = .failFast ∧ ∃ d, failure = .aborted d := by
  induction steps with
  | nil =>
      intro s failure h
      cases h
  | cons step rest ih =>
      intro s failure h
      simp only [replay] at h
      cases htake : s.take step with
      | ok t =>
          rw [htake] at h
          obtain ⟨hmode, haborted⟩ := ih h
          exact ⟨(Leaves.take htake).mode ▸ hmode, haborted⟩
      | error other =>
          rw [htake] at h
          obtain rfl := Except.error.inj h
          cases step with
          | report d =>
              simp only [take] at htake
              cases hlog : s.log.add d with
              | ok log => simp [hlog, Except.map] at htake
              | error refused =>
                  rw [hlog] at htake
                  obtain rfl := Except.error.inj htake
                  exact ⟨(Log.add_error hlog).1, d, (Log.add_error hlog).2⟩
          | refer library => cases htake
          | pointAt span => cases htake

lemma Work.Traced.exec_error {α : Type} {w : Work α} {s : Session} (hw : w.Traced may s.table)
    (hs : s.Settled may) {failure : Failure} (h : (w.exec s).1 = .error failure) :
    Accounted may s.log.mode failure := by
  obtain ⟨t, hfail, hrun⟩ := hw s hs rfl
  rw [hrun s rfl] at h
  simp only [Trace.replay] at h
  rcases hreplay : s.replay t.steps with ⟨other | _, u⟩
  · rw [hreplay] at h
    obtain rfl := Except.error.inj h
    exact Or.inr (Session.replay_error t.steps (congrArg Prod.fst hreplay))
  · rw [hreplay] at h
    exact Or.inl (hfail failure h)

lemma filesItems_error : ∀ (files : List CollectedFile) {s : Session}, s.Settled may →
    ∀ {failure : Failure}, ((filesItems files).run s).1.1 = .error failure →
      Accounted may s.log.mode failure
  | [], _, _, _, h => by cases h
  | f :: rest, s, hs, failure, h => by
      have hleaves := f.leaves_after hs
      cases hitems : (f.items.exec s).1 with
      | error other =>
          rw [filesItems_cons_error hitems] at h
          obtain rfl := Except.error.inj h
          exact Work.Traced.exec_error f.items_traced hs hitems
      | ok items =>
          rw [filesItems_cons_ok hitems] at h
          cases hrest : ((filesItems rest).run (f.after s)).1.1 with
          | ok more => simp [hrest, Except.map] at h
          | error other =>
              simp only [hrest, Except.map, Except.error.injEq] at h
              exact h ▸ hleaves.mode ▸ filesItems_error rest (hleaves.settled hs) hrest

lemma writeLibrary_failure (library : Nat) (name : String) (files : List CollectedFile)
    {s : Session} (hs : s.Settled may) {failure : Failure}
    (h : ((writeLibrary library name files).run s).1.failure = some failure) :
    Accounted may s.log.mode failure := by
  rw [writeLibrary_run] at h
  simp only [finishLibrary] at h
  cases hout : ((filesItems files).run (s.enter library)).1.1 with
  | ok items =>
      rw [hout] at h
      cases h
  | error other =>
      rw [hout] at h
      obtain rfl := Option.some.inj h
      exact filesItems_error files (hs.enter library) hout

/-- Every failure of a run is accounted for. -/
lemma writeLibraries_failure : ∀ (plans : List LibraryPlan) (first : Nat) {s : Session},
    s.Settled may → ∀ unit ∈ ((writeLibraries first plans).run s).1, ∀ failure,
      unit.failure = some failure → Accounted may s.log.mode failure
  | [], _, _, _ => by
      intro unit hunit
      cases hunit
  | plan :: plans, first, s, hs => by
      have hleaves := writeLibrary_leaves first plan.name plan.files hs
      intro unit hunit failure hfailure
      rcases List.mem_cons.mp hunit with rfl | hunit
      · exact writeLibrary_failure first plan.name plan.files hs hfailure
      · have hrest := writeLibraries_failure plans (first + 1)
          (hleaves.settled (hs.enter first)) unit hunit failure hfailure
        rw [hleaves.mode] at hrest
        exact hrest

end

/-- **Well-formed files do not make a run fail.**  In the table of the run every function has a call
signature, every variable its property and every alias what it stands for; preparing succeeds, and
every symbol of an input is in a file of a library.  Unless expanding aliases runs out of steps, no
library is given up when diagnostics are recorded, and only for a diagnostic when none may be
reported. -/
theorem generate_failures (files : List SourceFile) (policy : UnionPolicy)
    (merge : Option String) :
    match files.mapM SourceFile.read with
    | .error rejection => ∀ mode, generate files ⟨mode, policy, merge⟩ = .error rejection
    | .ok programs =>
      let plan := planRun merge files programs
      (∀ id s, plan.table.get? id = some s →
        (s.kind = .function → s.callSignatures ≠ []) ∧ (s.kind = .variable → s.properties ≠ []) ∧
          (s.kind = .alias → s.aliased ≠ none)) ∧
      ∀ mode, ∃ session units,
        Session.prepare plan.table ⟨mode, policy, merge⟩ plan.libraries = .ok session ∧
        (∀ id s, plan.table.get? id = some s → s.externalName = none →
          (session.libraryOf? s.file).isSome) ∧
        generate files ⟨mode, policy, merge⟩ = .ok units ∧
        ∀ unit ∈ units, unit.failure ≠ some .exhausted →
          unit.failure = none ∨ (mode = .failFast ∧ ∃ d, unit.failure = some (.aborted d)) := by
  cases hread : files.mapM SourceFile.read with
  | error rejection => exact fun mode => generate_error hread _
  | ok programs =>
      dsimp only
      refine ⟨?_, ?_⟩
      · intro id s hs
        have hhas := (collect_complete (placeFiles files programs) id s hs).1
        refine ⟨?_, ?_, ?_⟩ <;> intro hkind <;> rw [hkind] at hhas <;> exact hhas
      · intro mode
        obtain ⟨s, hready, hprepare⟩ :=
          prepare_ready (planRun merge files programs).table policy merge
            (planRun merge files programs).libraries
        have hs := (planRun_settled hready).inMode mode
        refine ⟨s.inMode mode, _, hprepare mode, ?_, generate_eq hread (hprepare mode), ?_⟩
        · intro id symbol hid hexternal
          obtain ⟨plan, hplan, f, hf, hfile⟩ := planRun_file merge files programs hid hexternal
          rw [← hfile]
          exact hready.assigned plan hplan f hf
        · intro unit hunit hexhausted
          cases hfailure : unit.failure with
          | none => exact Or.inl rfl
          | some failure =>
              rcases writeLibraries_failure _ 0 hs unit hunit failure hfailure with hmay | haborted
              · rw [hfailure, hmay] at hexhausted
                exact absurd rfl hexhausted
              · obtain ⟨hmode, d, rfl⟩ := haborted
                exact Or.inr ⟨hmode, d, rfl⟩

end Interop
