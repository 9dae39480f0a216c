import Interop.Proofs.FlatNames
import Interop.Proofs.InputOrder

/-!
# The libraries of a run

Every input goes into one library, which has the number of its place among the libraries, and keeps
the name that it was planned with.

* `planLibraries_files` — the files of all libraries are the inputs.
* `Session.Ready.kept_library` — a library that is not given up is made of what its files are written
  as.
* **`planRun_libraryOf`** — the files of a library of a run belong to it.
* **`planRun_library_name`** — libraries keep their names.
-/

namespace Interop

/-! ## Files -/

/-- The files of all libraries, once one more file is added. -/
lemma addToPlans_files (name : String) (f : CollectedFile) : ∀ plans : List LibraryPlan,
    ((addToPlans name f plans).flatMap (·.files)).Perm (plans.flatMap (·.files) ++ [f])
  | [] => by simp [addToPlans]
  | plan :: plans => by
      simp only [addToPlans]
      split_ifs
      · have hlast : ([f] ++ plans.flatMap (·.files)).Perm (plans.flatMap (·.files) ++ [f]) :=
          List.perm_append_comm
        simpa [List.append_assoc] using hlast.append_left plan.files
      · simpa [List.append_assoc] using (addToPlans_files name f plans).append_left plan.files

/-- Every file goes into one library. -/
lemma planLibraries_files (merge : Option String) (entries : List (String × CollectedFile)) :
    ((planLibraries merge entries).flatMap (·.files)).Perm (entries.map (·.2)) := by
  induction entries using List.reverseRecOn with
  | nil => exact .refl _
  | append_singleton entries entry ih =>
      have hlast : planLibraries merge (entries ++ [entry]) =
          addToPlans (merge.getD entry.1) entry.2 (planLibraries merge entries) := by
        simp [planLibraries]
      rw [hlast, List.map_append]
      exact (addToPlans_files _ _ _).trans (ih.append_right _)

/-- The files of the libraries of a run are those of the run. -/
lemma planRun_files (merge : Option String) (files : List SourceFile)
    (programs : List Source.Program) :
    ((planRun merge files programs).libraries.flatMap (·.files)).Perm
      (collect (placeFiles files programs)).2 := by
  have hall := planLibraries_files merge
    (((placeFiles files programs).map (·.place.module)).zip
      (collect (placeFiles files programs)).2)
  rwa [List.map_snd_zip (by rw [length_collected, List.length_map])] at hall

/-- The number of a file of a run is not that of the platform types. -/
lemma planRun_file_ne {merge : Option String} {files : List SourceFile}
    {programs : List Source.Program} (hlength : files.length ≤ ambientFile) {library : LibraryPlan}
    (hlibrary : library ∈ (planRun merge files programs).libraries) {f : CollectedFile}
    (hf : f ∈ library.files) : f.file ≠ ambientFile := by
  have hcollected := (planRun_files merge files programs).mem_iff.mp
    (List.mem_flatMap.mpr ⟨library, hlibrary, hf⟩)
  have hnumber := List.mem_map_of_mem (f := CollectedFile.file) hcollected
  rw [collect, defineFiles_files] at hnumber
  exact fun he => (placeFiles_distinguished hlength).ambient (he ▸ hnumber)

/-- A file is in the library that it is planned for, if it is planned for one only. -/
lemma libraryOf?_opened_of_nodup {table : SymbolTable} {mode : ReportMode} {policy : UnionPolicy}
    {plans : List LibraryPlan} (h : (plans.flatMap fun plan => plan.files.map (·.file)).Nodup)
    {i : Nat} {plan : LibraryPlan} (hplan : plans[i]? = some plan) {f : CollectedFile}
    (hf : f ∈ plan.files) :
    (plans.foldl Session.open (.start table mode policy)).libraryOf? f.file = some i := by
  induction plans using List.reverseRecOn with
  | nil => cases hplan
  | append_singleton plans last ih =>
      have hmem : f.file ∈ plan.files.map (·.file) := List.mem_map_of_mem hf
      rw [List.flatMap_append, List.nodup_append] at h
      rw [List.foldl_append, List.foldl_cons, List.foldl_nil, Session.libraryOf?_open,
        Session.size_opened]
      rcases Nat.lt_trichotomy i plans.length with hi | rfl | hi
      · rw [List.getElem?_append_left hi] at hplan
        have hearlier : f.file ∈ plans.flatMap fun plan => plan.files.map (·.file) :=
          List.mem_flatMap.mpr ⟨plan, List.mem_of_getElem? hplan, hmem⟩
        rw [if_neg fun hlast => h.2.2 _ hearlier _ (by simpa using hlast) rfl]
        exact ih h.1 hplan
      · obtain rfl : last = plan := by simpa using hplan
        rw [if_pos hmem]
      · rw [List.getElem?_eq_none (by simpa using hi)] at hplan
        cases hplan

/-! ## Runs -/

/-- **A library that is not given up** comes out as if it were the only one, and is made of what its
files are written as. -/
lemma Session.Ready.kept_library {table : SymbolTable} {plans : List LibraryPlan} {s : Session}
    (h : s.Ready table plans) {i : Nat} {unit : OutputLibrary}
    (hunit : ((writeLibraries 0 plans).run s).1[i]? = some unit) (hkept : unit.failure = none) :
    ∃ library items, plans[i]? = some library ∧ unit.name = library.name ∧
      ((filesItems library.files).run (s.enter i)).1.1 = .ok items ∧
      unit.text = libraryText library.name
        (((filesItems library.files).run (s.enter i)).2.importNames i) items := by
  rw [h.writeLibraries_eq, List.getElem?_map, List.getElem?_zipIdx, Nat.zero_add, Option.map_map,
    Option.map_eq_some_iff] at hunit
  obtain ⟨library, hlibrary, rfl⟩ := hunit
  simp only [Function.comp_apply, writeNumbered, writeLibrary_run, finishLibrary] at hkept ⊢
  cases hitems : ((filesItems library.files).run (s.enter i)).1.1 with
  | error failure => simp [hitems] at hkept
  | ok items => exact ⟨library, items, hlibrary, rfl, hitems, rfl⟩

section

variable {files : List SourceFile} {programs : List Source.Program} {options : GenerationOptions}
  {session : Session}
  (hprepare : Session.prepare (planRun options.merge files programs).table options
    (planRun options.merge files programs).libraries = .ok session)
include hprepare

/-- The files of a library of a run belong to it. -/
lemma planRun_libraryOf {i : Nat} {library : LibraryPlan}
    (hlibrary : (planRun options.merge files programs).libraries[i]? = some library)
    {f : CollectedFile} (hf : f ∈ library.files) : session.libraryOf? f.file = some i := by
  obtain ⟨-, hnames, -⟩ := prepare_opened hprepare
  rw [hnames.libraryOf?_eq]
  refine libraryOf?_opened_of_nodup ?_ hlibrary hf
  have hnumbers : ((collect (placeFiles files programs)).2.map (·.file)).Nodup := by
    rw [collect, defineFiles_files, placeFiles_numbered]
    exact List.nodup_range
  have hnodup := ((planRun_files options.merge files programs).map (·.file)).nodup_iff.mpr hnumbers
  rwa [List.map_flatMap] at hnodup

/-- Libraries keep the names that they are planned with. -/
lemma planRun_library_name (i : Nat) : (session.library? i).map (·.name) =
    (planRun options.merge files programs).libraries[i]?.map (·.name) := by
  cases hlibrary : (planRun options.merge files programs).libraries[i]? with
  | none =>
      obtain ⟨-, hnames, -⟩ := prepare_opened hprepare
      have hsize : session.libraries.size = (planRun options.merge files programs).libraries.length :=
        hnames.size.trans (Session.size_opened _)
      rw [Session.library?, Array.getElem?_eq_none (hsize ▸ List.getElem?_eq_none_iff.mp hlibrary)]
      rfl
  | some library =>
      have halone := prepare_plan hprepare
        (planRun_oneFilePerPath options.merge files programs) hlibrary
      rw [halone.library, Option.map_some, Option.map_some, Library.nameAll,
        Library.name_foldl_nameNext]
      rfl

end

end Interop
