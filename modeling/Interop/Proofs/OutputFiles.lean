import Interop.Proofs.Identifiers
import Interop.Proofs.Libraries
import Interop.Workspace.Memory
import Mathlib.Data.String.Basic

/-!
# Files of libraries

Libraries have different names, but what they are written to is named after the spelling of a name,
and two names may have one spelling.  This file says exactly when they do, and what that means: a
library that is written later takes the file of one that was written before.

* `libraryFile_eq_iff` — libraries have one file if their names have one spelling.
* `Workspace.writeFile_holds` — what is written to a file is what it holds.
* `Workspace.Stores.readText` — what is in the file of a library, once all libraries are stored.
* **`planRun_outputFiles`** — the files of the libraries of a run.
-/

namespace Interop

/-! ## Files -/

/-- Libraries have one file exactly if their names have one spelling. -/
lemma libraryFile_eq_iff {a b : String} :
    libraryFile a = libraryFile b ↔ Identifier.Collide a b := by
  rw [libraryFile, libraryFile, String.append_left_inj, ← Identifier.sanitize_eq_iff]
  rfl

/-! ## Paths -/

section

open String

/-- Splitting at slashes, from a place on. -/
lemma splitOnAux_slash : ∀ (r l m : List Char) (acc : List String),
    splitOnAux (ofList (l ++ m ++ r)) "/" ⟨utf8Len l⟩ ⟨utf8Len l + utf8Len m⟩ 0 acc =
      acc.reverse ++ (List.splitOnPPrepend (· == '/') r m.reverse).map ofList
  | [], l, m, acc => by
      have hend : Pos.Raw.atEnd (ofList (l ++ m ++ [])) ⟨utf8Len l + utf8Len m⟩ = true := by
        rw [← utf8Len_append]
        exact (atEnd_of_valid (l ++ m) []).mpr rfl
      unfold splitOnAux
      rw [if_pos hend, extract_of_valid l m []]
      simp [List.splitOnPPrepend]
  | c :: r, l, m, acc => by
      have hend : ¬ Pos.Raw.atEnd (ofList (l ++ m ++ c :: r)) ⟨utf8Len l + utf8Len m⟩ = true := by
        rw [← utf8Len_append, atEnd_of_valid (l ++ m) (c :: r)]
        simp
      have hget : Pos.Raw.get (ofList (l ++ m ++ c :: r)) ⟨utf8Len l + utf8Len m⟩ = c := by
        rw [← utf8Len_append]
        exact get_of_valid (l ++ m) (c :: r)
      have hnext : Pos.Raw.next (ofList (l ++ m ++ c :: r)) ⟨utf8Len l + utf8Len m⟩ =
          ⟨utf8Len l + utf8Len m + c.utf8Size⟩ := by
        rw [← utf8Len_append]
        exact next_of_valid (l ++ m) c r
      unfold splitOnAux
      rw [if_neg hend, hget]
      by_cases hc : c = '/'
      · -- the part before the slash is complete
        subst hc
        have hsep : Pos.Raw.next "/" 0 = ⟨1⟩ := by decide
        have hdone : Pos.Raw.atEnd "/" ⟨1⟩ = true := by decide
        have hstart : Pos.Raw.unoffsetBy ⟨utf8Len l + utf8Len m + '/'.utf8Size⟩ ⟨1⟩ =
            ⟨utf8Len l + utf8Len m⟩ := rfl
        rw [if_pos (by decide), hnext, hsep, if_pos hdone, hstart, extract_of_valid l m ('/' :: r)]
        have ih := splitOnAux_slash r (l ++ m ++ ['/']) [] (ofList m :: acc)
        simpa [List.splitOnPPrepend_cons_eq_if, Nat.add_assoc] using ih
      · have hslash : Pos.Raw.get "/" 0 = '/' := by decide
        have hback : ∀ n : Nat, Pos.Raw.unoffsetBy ⟨n⟩ 0 = ⟨n⟩ := fun n => rfl
        rw [if_neg (by simpa [hslash] using hc), hback, hnext]
        have ih := splitOnAux_slash r l (m ++ [c]) acc
        simpa [List.splitOnPPrepend_cons_eq_if, hc, Nat.add_assoc] using ih

/-- The parts of a path. -/
lemma splitOn_slash (path : String) :
    path.splitOn "/" = (path.toList.splitOnP (· == '/')).map ofList := by
  simpa [splitOn] using splitOnAux_slash path.toList [] [] []

end

/-- The last part of the path of a file in a directory is the file. -/
lemma splitOn_joinPath (directory : String) {file : String} (h : '/' ∉ file.toList) :
    ∃ parts, (joinPath directory file).splitOn "/" = parts ++ [file] := by
  have hfile : file.toList.splitOnP (· == '/') = [file.toList] :=
    List.splitOnP_eq_singleton fun c hc => by
      simpa using fun he : c = '/' => h (he ▸ hc)
  have hslash : ∀ before : List Char, ∃ parts,
      ((before ++ '/' :: file.toList).splitOnP (· == '/')).map String.ofList = parts ++ [file] := by
    intro before
    rw [List.splitOnP_append_cons _ _ (by decide), hfile, List.map_append]
    exact ⟨_, by rw [List.map_singleton, String.ofList_toList]⟩
  unfold joinPath
  split
  · -- the empty directory
    rename_i hnone
    obtain rfl : directory = "" := String.toList_inj.mp (List.getLast?_eq_none_iff.mp hnone)
    exact ⟨[], by rw [splitOn_slash, String.empty_append, hfile]; simp⟩
  · rename_i hlast
    obtain ⟨before, hbefore⟩ := List.getLast?_eq_some_iff.mp hlast
    rw [splitOn_slash, String.toList_append, hbefore, List.append_assoc]
    exact hslash before
  · rw [splitOn_slash, String.toList_append, String.toList_append, List.append_assoc]
    exact hslash directory.toList

/-! ## Writing to a workspace -/

namespace Workspace

variable {w w' : Workspace} {path : String} {location : Location} {content : ByteArray}

lemma find?_eq_directory_iff : w.find? location = some .directory ↔ w.isDirectory location = true := by
  unfold isDirectory
  rcases w.find? location with _ | _ | _ <;> simp

/-- Writing a file finds the place of its path. -/
lemma writeFile_ok (h : w.writeFile path content = .ok w') :
    ∃ location, w.locate path = .ok location ∧ w.isDirectory location = false ∧
      w' = w.put location (.file content) := by
  unfold writeFile at h
  cases hlocate : w.locate path with
  | error error => simp [hlocate, bind, Except.bind] at h
  | ok location =>
      simp only [hlocate, bind, Except.bind] at h
      split_ifs at h with hdirectory
      obtain rfl := Except.ok.inj h
      exact ⟨location, rfl, by simpa using hdirectory, rfl⟩

/-- What is put at a place is there, and nothing else is touched. -/
lemma find?_put (hdirectory : w.isDirectory location = false) (entry : Entry) (other : Location) :
    (w.put location entry).find? other = if other = location then some entry else w.find? other := by
  cases other with
  | nil =>
      have hne : [] ≠ location := by
        rintro rfl
        simp [isDirectory, find?] at hdirectory
      rw [if_neg hne]
      rfl
  | cons name rest =>
      have hlookup : ∀ entries : List (Location × Entry),
          (entries.filter fun e => e.1 != location).lookup (name :: rest) =
            if name :: rest = location then none else entries.lookup (name :: rest) := by
        intro entries
        induction entries with
        | nil => simp
        | cons e entries ih =>
            by_cases he : e.1 = location
            · rw [List.filter_cons_of_neg (by simp [he]), ih]
              split_ifs with hsame
              · rfl
              · have hne : (name :: rest == e.1) = false := by simpa [he] using hsame
                rw [List.lookup_cons, hne]
            · rw [List.filter_cons_of_pos (by simpa using he), List.lookup_cons, List.lookup_cons, ih]
              cases hsame : name :: rest == e.1 with
              | false => rfl
              | true =>
                  have hne : name :: rest ≠ location := fun h => he ((beq_iff_eq.mp hsame) ▸ h)
                  simp [hne]
      simp only [find?, put, List.lookup_append, hlookup]
      split_ifs with hsame
      · simp [hsame]
      · have hne : (name :: rest == location) = false := by simpa using hsame
        simp [List.lookup_cons, hne]

/-- A file takes no directory away and makes none. -/
lemma isDirectory_put (hdirectory : w.isDirectory location = false) (other : Location) :
    (w.put location (.file content)).isDirectory other = w.isDirectory other := by
  rw [isDirectory, find?_put hdirectory]
  split_ifs with hsame
  · rw [hsame, hdirectory]
  · rfl

/-- A path that leads somewhere leads there as long as the directories are the same. -/
lemma walk_congr (h : ∀ location, w'.isDirectory location = w.isDirectory location) :
    ∀ {parts : List String} {start location : Location}, w.walk start parts = .ok location →
      w'.walk start parts = .ok location
  | [], _, _, hwalk => hwalk
  | part :: rest, start, location, hwalk => by
      have hdirectory : w.find? start = some .directory := by
        cases hfind : w.find? start with
        | none => simp [walk, hfind] at hwalk
        | some entry =>
            cases entry with
            | directory => rfl
            | file content => simp [walk, hfind] at hwalk
      have hdirectory' : w'.find? start = some .directory :=
        find?_eq_directory_iff.mpr ((h start).trans (find?_eq_directory_iff.mp hdirectory))
      simp only [walk, hdirectory, hdirectory'] at hwalk ⊢
      cases hstep : step start part with
      | error error => simp [hstep, bind, Except.bind] at hwalk
      | ok next =>
          simp only [hstep, bind, Except.bind] at hwalk ⊢
          exact walk_congr h hwalk

lemma locate_congr (h : ∀ location, w'.isDirectory location = w.isDirectory location)
    (hlocate : w.locate path = .ok location) : w'.locate path = .ok location := by
  unfold locate at hlocate ⊢
  split at hlocate
  · cases hlocate
  · exact walk_congr h hlocate

/-- A file holds a text. -/
def Holds (w : Workspace) (path text : String) : Prop :=
  ∃ location, w.locate path = .ok location ∧ w.find? location = some (.file text.toUTF8)

/-- What a file holds can be read from it. -/
lemma Holds.readText {text : String} (h : w.Holds path text) : w.readText path = .ok text := by
  obtain ⟨location, hlocate, hfind⟩ := h
  have htext : String.fromUTF8? text.toUTF8 = some text := by
    simp only [String.fromUTF8?]
    exact dif_pos text.isValidUTF8
  simp only [Workspace.readText, hlocate, bind, Except.bind, hfind, htext, pure, Except.pure]

/-- **What is written to a file is what it holds.** -/
lemma writeFile_holds {text : String} (h : w.writeFile path text.toUTF8 = .ok w') :
    w'.Holds path text := by
  obtain ⟨location, hlocate, hdirectory, rfl⟩ := writeFile_ok h
  refine ⟨location, locate_congr (isDirectory_put hdirectory) hlocate, ?_⟩
  rw [find?_put hdirectory, if_pos rfl]

/-- A name of a file, which leads to a place of its own in every directory. -/
structure IsFileName (name : String) : Prop where
  slash : '/' ∉ name.toList
  ne_empty : name ≠ ""
  ne_dot : name ≠ "."
  ne_dots : name ≠ ".."

lemma walk_append_singleton {part : String} : ∀ {parts : List String} {start location : Location},
    w.walk start (parts ++ [part]) = .ok location → ∃ place, step place part = .ok location
  | [], start, location, h => by
      simp only [List.nil_append, walk] at h
      split at h
      · rcases hstep : step start part with error | next
        · simp [hstep, bind, Except.bind] at h
        · obtain rfl : next = location := by simpa [hstep, bind, Except.bind] using h
          exact ⟨start, hstep⟩
      · cases h
      · cases h
  | first :: rest, start, location, h => by
      simp only [List.cons_append, walk] at h
      split at h
      · rcases hstep : step start first with error | next
        · simp [hstep, bind, Except.bind] at h
        · simp only [hstep, bind, Except.bind] at h
          exact walk_append_singleton h
      · cases h
      · cases h

/-- The place of a file in a directory ends with its name. -/
lemma getLast?_of_locate {directory name : String} (hname : IsFileName name)
    (h : w.locate (joinPath directory name) = .ok location) : location.getLast? = some name := by
  obtain ⟨parts, hparts⟩ := splitOn_joinPath directory hname.slash
  have hwalk : w.walk [] (parts ++ [name]) = .ok location := by
    unfold locate at h
    rw [hparts] at h
    split at h
    · cases h
    · exact h
  obtain ⟨place, hplace⟩ := walk_append_singleton hwalk
  simp only [step, Bool.or_eq_true, beq_iff_eq, hname.ne_empty, hname.ne_dot, hname.ne_dots,
    or_self, if_false] at hplace
  split_ifs at hplace
  rw [← Except.ok.inj hplace]
  simp

/-- Writing another file of the same directory takes nothing away. -/
lemma Holds.writeFile {directory name other text : String} (hname : IsFileName name)
    (hother : IsFileName other) (hne : other ≠ name)
    (h : w.Holds (joinPath directory name) text)
    (hwrite : w.writeFile (joinPath directory other) content = .ok w') :
    w'.Holds (joinPath directory name) text := by
  obtain ⟨location, hlocate, hfind⟩ := h
  obtain ⟨place, hplace, hdirectory, rfl⟩ := writeFile_ok hwrite
  refine ⟨location, locate_congr (isDirectory_put hdirectory) hlocate, ?_⟩
  rw [find?_put hdirectory, if_neg, hfind]
  rintro rfl
  have hlast := getLast?_of_locate hother hplace
  rw [getLast?_of_locate hname hlocate] at hlast
  exact hne (Option.some.inj hlast).symm

/-! ## Storing libraries -/

/-- Libraries are written to their files in a directory, one after another. -/
inductive Stores (directory : String) : List OutputLibrary → Workspace → Workspace → Prop
  | nil (w : Workspace) : Stores directory [] w w
  | cons {unit : OutputLibrary} {rest : List OutputLibrary} {w w₁ w₂ : Workspace} :
      w.writeFile (joinPath directory unit.file) unit.text.toUTF8 = .ok w₁ →
        Stores directory rest w₁ w₂ → Stores directory (unit :: rest) w w₂

/-- The file of a library is named as a file can be. -/
lemma isFileName_libraryFile (name : String) : IsFileName (libraryFile name) := by
  have htext : (libraryFile name).toList = (Identifier.sanitize name).toList ++ ".dart".toList :=
    String.toList_append
  have hlong : 5 ≤ (libraryFile name).toList.length := by
    rw [htext, List.length_append]
    exact Nat.le_add_left 5 _
  refine ⟨fun hslash => ?_, ?_, ?_, ?_⟩
  · rw [htext, List.mem_append] at hslash
    rcases hslash with hslash | hslash
    · have hpart := Identifier.isPart_of_mem_sanitize hslash
      revert hpart
      decide
    · revert hslash
      decide
  all_goals
    intro hsame
    rw [hsame] at hlong
    revert hlong
    decide

namespace Stores

variable {directory : String} {units : List OutputLibrary} {unit : OutputLibrary}

/-- Storing libraries takes nothing away from the files of others. -/
lemma holds (h : Stores directory units w w') {name text : String}
    (hothers : ∀ other ∈ units, libraryFile other.name ≠ libraryFile name)
    (hholds : w.Holds (joinPath directory (libraryFile name)) text) :
    w'.Holds (joinPath directory (libraryFile name)) text := by
  induction h with
  | nil w => exact hholds
  | cons hwrite _ ih =>
      refine ih (fun other hother => hothers other (List.mem_cons_of_mem _ hother)) ?_
      exact hholds.writeFile (isFileName_libraryFile _) (isFileName_libraryFile _)
        (hothers _ List.mem_cons_self) hwrite

/-- **A file holds what was stored there last.** -/
lemma readText {before after : List OutputLibrary}
    (h : Stores directory (before ++ unit :: after) w w')
    (hothers : ∀ other ∈ after, libraryFile other.name ≠ libraryFile unit.name) :
    w'.readText (joinPath directory unit.file) = .ok unit.text := by
  induction before generalizing w with
  | nil =>
      cases h with
      | cons hwrite hrest => exact (hrest.holds hothers (writeFile_holds hwrite)).readText
  | cons first before ih =>
      cases h with
      | cons _ hrest => exact ih hrest

end Stores

/-- What a run does to a workspace. -/
abbrev Storing := ExceptT RunError (StateM Workspace)

/-- One step after another, up to the first that fails. -/
lemma storing_bind {α β : Type} (first : Storing α) (next : α → Storing β) (w : Workspace) :
    (first >>= next).run.run w = match first.run.run w with
      | (.ok a, w') => (next a).run.run w'
      | (.error error, w') => (.error error, w') := by
  rw [ExceptT.run_bind, StateT.run_bind]
  rcases first.run.run w with ⟨_ | _, _⟩ <;> rfl

lemma onFile_ok {α : Type} {path : String} {work : StateM Workspace (Except FileError α)} {a : α}
    (h : (onFile path work : Storing α).run.run w = (.ok a, w')) : work.run w = (.ok a, w') := by
  have hrun : (onFile path work : Storing α).run.run w =
      ((work.run w).1.mapError (RunError.file path), (work.run w).2) := by
    unfold onFile
    rw [ExceptT.run_mk, StateT.run_bind]
    rcases work.run w with ⟨_ | _, _⟩ <;> rfl
  rw [hrun] at h
  rcases hwork : work.run w with ⟨error | b, changed⟩
  · rw [hwork] at h
    cases h
  · rw [hwork] at h
    obtain ⟨hb, rfl⟩ := Prod.mk.inj h
    rw [Except.ok.inj hb]

lemma storeLibrary_ok {directory : String} {unit : OutputLibrary}
    (h : (storeLibrary directory unit : Storing Unit).run.run w = (.ok (), w')) :
    w.writeFile (joinPath directory unit.file) unit.text.toUTF8 = .ok w' := by
  have hwrite : w.orUnchanged (w.writeFile (joinPath directory unit.file) unit.text.toUTF8) =
      (.ok (), w') := onFile_ok h
  rcases houtcome : w.writeFile (joinPath directory unit.file) unit.text.toUTF8 with error | changed
  · rw [houtcome] at hwrite
    cases hwrite
  · rw [houtcome] at hwrite
    rw [(Prod.mk.inj hwrite).2]

lemma stores_of_forM {directory : String} : ∀ {units : List OutputLibrary} {w w' : Workspace},
    (units.forM (storeLibrary directory) : Storing Unit).run.run w = (.ok (), w') →
      Stores directory units w w'
  | [], w, w', h => by
      obtain rfl := (Prod.mk.inj h).2
      exact .nil w
  | unit :: rest, w, w', h => by
      have hrun : (storeLibrary directory unit >>= fun _ =>
          rest.forM (storeLibrary directory) : Storing Unit).run.run w = (.ok (), w') := h
      rw [storing_bind] at hrun
      rcases hfirst : (storeLibrary directory unit : Storing Unit).run.run w with ⟨error | _, changed⟩
      · rw [hfirst] at hrun
        cases hrun
      · rw [hfirst] at hrun
        exact .cons (storeLibrary_ok hfirst) (stores_of_forM hrun)

/-- Libraries that are not given up are stored, if storing succeeds. -/
lemma stores_of_storeLibraries {directory : String} {units : List OutputLibrary}
    (h : (storeLibraries directory units : Storing Unit).run.run w = (.ok (), w')) :
    ∃ start, Stores directory (units.filter (·.failure.isNone)) start w' := by
  unfold storeLibraries at h
  rw [storing_bind] at h
  rcases hmade : (onFile directory (FileStore.makeDirectories directory) : Storing Unit).run.run w with
    ⟨error | _, made⟩
  · rw [hmade] at h
    cases h
  · rw [hmade] at h
    exact ⟨made, stores_of_forM h⟩

end Workspace

/-! ## Files of a run -/

section

variable {files : List SourceFile} {programs : List Source.Program} {session : Session}

/-- The names of the libraries of a run without merging. -/
lemma planRun_names_nodup : ((planRun none files programs).libraries.map (·.name)).Nodup := by
  have hplans : (planRun none files programs).libraries = libraryPlans (placeFiles files programs) :=
    rfl
  have hmodules : ((placeFiles files programs).map (·.place.module)).Nodup :=
    placeFiles_modules_nodup
  rw [hplans, libraryPlans_eq hmodules, List.map_map]
  have hnames := List.map_map (l := (placeFiles files programs).zip
    (collect (placeFiles files programs)).2) (f := Prod.fst) (g := (·.place.module))
  rw [List.map_fst_zip (Nat.le_of_eq (length_collected _).symm)] at hnames
  rwa [hnames] at hmodules

lemma name_writeNumbered (unit : LibraryPlan × Nat) (s : Session) :
    ((writeNumbered unit).run s).1.name = unit.1.name := by
  rw [writeNumbered, writeLibrary_run, finishLibrary]
  split <;> rfl

/-- Libraries come out under the names that they are planned with. -/
lemma names_writeLibraries {table : SymbolTable} {plans : List LibraryPlan}
    (hready : session.Ready table plans) :
    ((writeLibraries 0 plans).run session).1.map (·.name) = plans.map (·.name) := by
  have hnames : plans.zipIdx.map (fun unit => unit.1.name) = plans.map (·.name) := by
    show plans.zipIdx.map ((·.name) ∘ Prod.fst) = _
    rw [← List.map_map, List.zipIdx_map_fst]
  rw [hready.writeLibraries_eq, List.map_map, ← hnames]
  exact List.map_congr_left fun unit _ => name_writeNumbered unit session

/-- What a library imports has the names of libraries of the run. -/
lemma planRun_importNames (options : GenerationOptions)
    (hprepare : Session.prepare (planRun options.merge files programs).table options
      (planRun options.merge files programs).libraries = .ok session)
    (hready : session.Ready (planRun options.merge files programs).table
      (planRun options.merge files programs).libraries)
    {unit : OutputLibrary}
    (hunit : unit ∈ ((writeLibraries 0 (planRun options.merge files programs).libraries).run
      session).1) (hkept : unit.failure = none) :
    ∃ imports items, unit.text = libraryText unit.name imports items ∧
      ∀ name ∈ imports, name ∈ (planRun options.merge files programs).libraries.map (·.name) := by
  obtain ⟨i, hi⟩ := List.mem_iff_getElem?.mp hunit
  obtain ⟨library, items, -, hname, -, htext⟩ := hready.kept_library hi hkept
  refine ⟨_, items, hname ▸ htext, fun name hname => ?_⟩
  obtain ⟨other, -, hother⟩ := List.mem_filterMap.mp hname
  have hleaves := filesItems_leaves library.files (hready.settled_any.enter i)
  have hlibraries : ((filesItems library.files).run (session.enter i)).2.libraries =
      session.libraries := by
    rw [hleaves.kept]
    rfl
  rw [Session.library?, hlibraries] at hother
  have hplanned := planRun_library_name hprepare other
  rw [Session.library?, hother] at hplanned
  obtain ⟨plan, hplan, rfl⟩ := Option.map_eq_some_iff.mp hplanned.symm
  exact List.mem_map_of_mem (List.mem_of_getElem? hplan)

end

/-- **Files of a run.**  Without merging, libraries have different names.  Their files are different
exactly if no two of these names have one spelling.  What a library imports is another library of the
run, and no third one has its file but under a name of that spelling.  After all libraries are
stored, a file holds the library that has no later one with its spelling. -/
theorem planRun_outputFiles (files : List SourceFile) (programs : List Source.Program)
    (options : GenerationOptions) :
    let plan := planRun none files programs
    ∃ session, Session.prepare plan.table { options with merge := none } plan.libraries =
        .ok session ∧
      let units := ((writeLibraries 0 plan.libraries).run session).1
      (units.map (·.name)).Nodup ∧
      ((units.map (·.file)).Nodup ↔ units.Pairwise fun a b => ¬ Identifier.Collide a.name b.name) ∧
      (∀ unit ∈ units, unit.failure = none → ∃ imports items,
        unit.text = libraryText unit.name imports items ∧
          ∀ name ∈ imports, ∃ other ∈ units, other.name = name ∧
            ∀ third ∈ units, third.file = libraryFile name →
              third = other ∨ third.name ≠ name ∧ Identifier.Collide third.name name) ∧
      ∀ directory (w w' : Workspace),
        (storeLibraries directory units : Workspace.Storing Unit).run.run w = (.ok (), w') →
          ∀ before unit after, units.filter (·.failure.isNone) = before ++ unit :: after →
            (∀ other ∈ after, ¬ Identifier.Collide other.name unit.name) →
              w'.readText (joinPath directory unit.file) = .ok unit.text := by
  intro plan
  obtain ⟨session, hprepare, hready⟩ :=
    prepare_session plan.table { options with merge := none } plan.libraries
  refine ⟨session, hprepare, ?_⟩
  intro units
  have hnames : (units.map (·.name)).Nodup := by
    rw [names_writeLibraries hready]
    exact planRun_names_nodup
  refine ⟨hnames, ?_, fun unit hunit hkept => ?_, fun directory w w' hstore => ?_⟩
  · rw [List.Nodup, List.pairwise_map]
    simp only [OutputLibrary.file, ne_eq, libraryFile_eq_iff]
  · obtain ⟨imports, items, htext, himports⟩ := planRun_importNames
      { options with merge := none } hprepare hready hunit hkept
    refine ⟨imports, items, htext, fun name hname => ?_⟩
    have hlisted := himports name hname
    rw [← names_writeLibraries hready] at hlisted
    obtain ⟨other, hother, rfl⟩ := List.mem_map.mp hlisted
    refine ⟨other, hother, rfl, fun third hthird hfile => ?_⟩
    by_cases hsame : third.name = other.name
    · exact Or.inl (List.inj_on_of_nodup_map hnames hthird hother hsame)
    · exact Or.inr ⟨hsame, libraryFile_eq_iff.mp hfile⟩
  · intro before unit after hunits hlater
    obtain ⟨start, hstores⟩ := Workspace.stores_of_storeLibraries hstore
    rw [hunits] at hstores
    exact hstores.readText fun other hother hfile => hlater other hother (libraryFile_eq_iff.mp hfile)

open Source in
set_option maxRecDepth 2000 in
/-- Two inputs whose names have one spelling.  Both libraries go to one file, where only the second
is found afterwards. -/
theorem planRun_outputFiles_one_file :
    let files : List SourceFile := [⟨"a-b", "interface A {}"⟩, ⟨"a_b", "interface B {}"⟩]
    let text := "@JS()\nlibrary a_b;\n\nimport 'package:js/js.dart';\n\n@JS()\n@anonymous\n" ++
      "abstract class B \x7b\n\x7d\n"
    ∃ programs session, files.mapM SourceFile.read = .ok programs ∧
      Session.prepare (planRun none files programs).table {}
        (planRun none files programs).libraries = .ok session ∧
      let units := ((writeLibraries 0 (planRun none files programs).libraries).run session).1
      units.map (fun unit => (unit.name, unit.failure, unit.file)) =
        [("a-b", none, "a_b.dart"), ("a_b", none, "a_b.dart")] ∧
      ∀ (w w' : Workspace), (storeLibraries "out" units : Workspace.Storing Unit).run.run w =
        (.ok (), w') → w'.readText "out/a_b.dart" = .ok text := by
  intro files text
  let first : Program := ⟨[.declaration false (.interface ⟨⟨0, 14⟩, "A", [], [], []⟩)]⟩
  let second : Program := ⟨[.declaration false (.interface ⟨⟨0, 14⟩, "B", [], [], []⟩)]⟩
  have hread : files.mapM SourceFile.read = .ok [first, second] := by
    have hfirst : SourceFile.read ⟨"a-b", "interface A {}"⟩ = .ok first :=
      SourceFile.read_of_parse (by cbv) (by cbv) (by decide +kernel)
    have hsecond : SourceFile.read ⟨"a_b", "interface B {}"⟩ = .ok second :=
      SourceFile.read_of_parse (by cbv) (by cbv) (by decide +kernel)
    simp only [files, List.mapM_cons, List.mapM_nil, hfirst, hsecond]
    rfl
  have hnames : moduleNames ["a-b", "a_b"] = ["a-b", "a_b"] := by
    have hfiles : fileName "a-b" = "a-b" ∧ fileName "a_b" = "a_b" := ⟨by cbv, by cbv⟩
    refine moduleNames_of_stems ?_ (by simp)
    simp only [List.map_cons, List.map_nil, moduleStem, hfiles]
    decide
  let placed : List ReadFile := [
    ⟨"a-b", { file := 0, module := "a-b", source := "interface A {}" }, first⟩,
    ⟨"a_b", { file := 1, module := "a_b", source := "interface B {}" }, second⟩]
  have hplan : planRun none files [first, second] = planPlaced none placed := by
    have hpaths : files.map (·.path) = ["a-b", "a_b"] := rfl
    rw [planRun_eq, placeFiles, hpaths, hnames]
    rfl
  have hunits : (Session.prepare (planPlaced none placed).table {}
      (planPlaced none placed).libraries).toOption.map (fun session =>
        ((writeLibraries 0 (planPlaced none placed).libraries).run session).1.map fun unit =>
          (unit.name, unit.failure, unit.file)) =
      some [("a-b", none, "a_b.dart"), ("a_b", none, "a_b.dart")] := by
    decide +kernel
  have htext : (Session.prepare (planPlaced none placed).table {}
      (planPlaced none placed).libraries).toOption.map (fun session =>
        ((writeLibraries 0 (planPlaced none placed).libraries).run session).1[1]?.map
          OutputLibrary.text) = some (some text) := by
    decide +kernel
  obtain ⟨session, hprepare, hready⟩ := prepare_session (planPlaced none placed).table {}
    (planPlaced none placed).libraries
  rw [hprepare] at hunits htext
  simp only [Except.toOption, Option.map_some, Option.some.injEq] at hunits htext
  refine ⟨[first, second], session, hread, ?_⟩
  rw [hplan]
  refine ⟨hprepare, hunits, fun w w' hstore => ?_⟩
  obtain ⟨start, hstores⟩ := Workspace.stores_of_storeLibraries hstore
  obtain ⟨unit, other, hlist⟩ := List.length_eq_two.mp
    (show ((writeLibraries 0 (planPlaced none placed).libraries).run session).1.length = 2 by
      simpa using congrArg List.length hunits)
  rw [hlist] at hunits htext hstores
  simp only [List.map_cons, List.map_nil, List.cons.injEq, Prod.mk.injEq, and_true] at hunits
  obtain ⟨⟨-, hkept, -⟩, -, hkept', hfile⟩ := hunits
  rw [List.filter_cons_of_pos (by rw [hkept]; rfl),
    List.filter_cons_of_pos (by rw [hkept']; rfl)] at hstores
  have hlast : Workspace.Stores "out" ([unit] ++ other :: []) start w' := hstores
  rw [← Option.some.inj htext, ← show joinPath "out" other.file = "out/a_b.dart" by rw [hfile]; rfl]
  exact hlast.readText fun _ h => by cases h

end Interop
