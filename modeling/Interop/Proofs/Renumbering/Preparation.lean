import Interop.Proofs.Renumbering.Collection
import Interop.Proofs.Renumbering.Libraries

/-!
# Preparing the same files in another order

Without merging, and with modules that have different names, every file goes into a library of its
own, which has the number of the file.  The names in a library come from its own declarations in the
order of their registration, whatever number it has.  So two runs over the same files are prepared
alike.

* `Library.nameAll_alike` — the names that a library gives do not depend on its number.
* `planLibraries_of_nodup` — one library for each file.
* `Session.OnePerFile` — prepared sessions of such runs.
* **`Reordered.twins`** — two of them are twins.
-/

namespace Interop

open Source

/-! ## Libraries with other numbers -/

namespace Library

section

variable {a b : Library} (h : b.used = a.used)
include h

lemma contains_congr (name : String) : b.contains name = a.contains name := by
  rw [contains, contains, h]

lemma numbered_congr (base : String) : ∀ fuel n, b.numbered base fuel n = a.numbered base fuel n
  | 0, _ => rfl
  | fuel + 1, n => by
      simp only [numbered, contains_congr h, numbered_congr base fuel]

/-- The name of a new path depends on the names in use alone. -/
lemma firstFree_congr (path : DeclPath) : b.firstFree path = a.firstFree path := by
  simp only [firstFree, contains_congr h, numbered_congr h, size, h]

lemma used_insert_congr (name : String) : (b.insert name).used = (a.insert name).used := by
  simp only [insert, contains_congr h]
  split_ifs
  · exact h
  · exact congrArg (· ++ [name]) h

end

/-- Registries and libraries that differ in numbers alone. -/
structure Alike (x y : Registry × Library) : Prop where
  used : y.2.used = x.2.used
  name : ∀ path, (y.1.find? path).map (·.name) = (x.1.find? path).map (·.name)

/-- One more path gets the same name. -/
lemma Alike.nameNext {x y : Registry × Library} (h : Alike x y) (path : DeclPath) :
    Alike (Library.nameNext x path) (Library.nameNext y path) := by
  have hname := h.name path
  cases hx : x.1.find? path with
  | some record =>
      rw [hx] at hname
      obtain ⟨record', hy, -⟩ := Option.map_eq_some_iff.mp hname
      rw [Library.nameNext, Library.nameNext, Registry.allocate_of_find? hx,
        Registry.allocate_of_find? hy]
      exact h
  | none =>
      rw [hx] at hname
      have hy := Option.map_eq_none_iff.mp hname
      rw [Library.nameNext, Library.nameNext, Registry.allocate_of_new hx,
        Registry.allocate_of_new hy, firstFree_congr h.used]
      refine ⟨used_insert_congr h.used _, fun q => ?_⟩
      rw [Registry.find?_append _ _ _ _ hx, Registry.find?_append _ _ _ _ hy]
      split_ifs
      · rfl
      · exact h.name q

/-- **The names that a library gives do not depend on its number.** -/
lemma nameAll_alike (i j : Nat) (name : String) (paths : List DeclPath) :
    Alike ((withCoreNames i name).nameAll paths) ((withCoreNames j name).nameAll paths) := by
  have hfold : ∀ (paths : List DeclPath) {x y : Registry × Library}, Alike x y →
      Alike (paths.foldl nameNext x) (paths.foldl nameNext y) := by
    intro paths
    induction paths with
    | nil => exact fun h => h
    | cons path rest ih => exact fun h => ih (h.nameNext path)
  exact hfold paths ⟨rfl, fun _ => rfl⟩

end Library

/-! ## One library for each file -/

lemma addToPlans_new {name : String} (f : CollectedFile) : ∀ {plans : List LibraryPlan},
    name ∉ plans.map (·.name) → addToPlans name f plans = plans ++ [⟨name, [f]⟩]
  | [], _ => rfl
  | plan :: plans, h => by
      rw [List.map_cons, List.mem_cons, not_or] at h
      have hne : (plan.name == name) = false := by simpa using fun he => h.1 he.symm
      simp only [addToPlans, hne, addToPlans_new f h.2]
      rfl

/-- **Without merging, every file goes into a library of its own**, if their names are different. -/
lemma planLibraries_of_nodup {entries : List (String × CollectedFile)}
    (h : (entries.map (·.1)).Nodup) :
    planLibraries none entries = entries.map fun entry => ⟨entry.1, [entry.2]⟩ := by
  induction entries using List.reverseRecOn with
  | nil => rfl
  | append_singleton entries entry ih =>
      rw [List.map_append, List.nodup_append] at h
      have hlast : planLibraries none (entries ++ [entry]) =
          addToPlans entry.1 entry.2 (planLibraries none entries) := by
        simp [planLibraries]
      rw [hlast, ih h.1, addToPlans_new, List.map_append]
      · rfl
      · rw [List.map_map]
        intro hmem
        exact h.2.2 _ hmem _ List.mem_cons_self rfl

/-- If every library has the file of its own number, files are in libraries of their numbers. -/
lemma libraryOf?_opened {table : SymbolTable} {mode : ReportMode} {policy : UnionPolicy}
    {plans : List LibraryPlan}
    (h : ∀ (i : Nat) (plan : LibraryPlan), plans[i]? = some plan → plan.files.map (·.file) = [i])
    (file : Nat) :
    (plans.foldl Session.open (.start table mode policy)).libraryOf? file =
      if file < plans.length then some file else none := by
  induction plans using List.reverseRecOn with
  | nil => rfl
  | append_singleton plans plan ih =>
      have hlast := h plans.length plan (by simp)
      rw [List.foldl_append, List.foldl_cons, List.foldl_nil, Session.libraryOf?_open, hlast,
        Session.size_opened, ih fun i other hother => h i other ?_]
      · simp only [List.mem_singleton, List.length_append, List.length_singleton]
        split_ifs <;> first | rfl | omega | simp_all
      · rw [List.getElem?_append_left (List.getElem?_eq_some_iff.mp hother).1, hother]

/-- The libraries of a run without merging. -/
def libraryPlans (files : List ReadFile) : List LibraryPlan :=
  planLibraries none ((files.map (·.place.module)).zip (collect files).2)

/-- Files that are numbered by their places among the inputs. -/
def Numbered (files : List ReadFile) : Prop :=
  files.map (·.place.file) = List.range files.length

lemma Numbered.file_eq {files : List ReadFile} (h : Numbered files) {i : Nat} {f : ReadFile}
    (hf : files[i]? = some f) : f.place.file = i := by
  have hi := congrArg (·[i]?) h
  simp only [List.getElem?_map, hf, Option.map_some,
    List.getElem?_range (List.getElem?_eq_some_iff.mp hf).1] at hi
  exact Option.some.inj hi

/-- A file is the one at the place of its number. -/
lemma Numbered.getElem?_iff {files : List ReadFile} (h : Numbered files) {i : Nat} {f : ReadFile} :
    files[i]? = some f ↔ f ∈ files ∧ f.place.file = i := by
  refine ⟨fun hf => ⟨List.mem_of_getElem? hf, h.file_eq hf⟩, ?_⟩
  rintro ⟨hf, rfl⟩
  obtain ⟨j, hj⟩ := List.mem_iff_getElem?.mp hf
  rwa [h.file_eq hj]

lemma collected_file {files : List ReadFile} {f : ReadFile} {g : CollectedFile}
    (h : (f, g) ∈ files.zip (collect files).2) : g.file = f.place.file := by
  obtain ⟨i, hi⟩ := List.mem_iff_getElem?.mp h
  obtain ⟨hf, hg⟩ := List.getElem?_zip_eq_some.mp hi
  have hfiles := congrArg (·[i]?) (defineFiles_files files (declareFiles files))
  simp only [List.getElem?_map, hf] at hfiles
  have hg' : (defineFiles (declareFiles files) files).2[i]? = some g := hg
  rw [hg'] at hfiles
  exact Option.some.inj hfiles

section

variable {files : List ReadFile} (hmodules : (files.map (·.place.module)).Nodup)
include hmodules

lemma libraryPlans_eq : libraryPlans files =
    (files.zip (collect files).2).map fun entry => ⟨entry.1.place.module, [entry.2]⟩ := by
  rw [libraryPlans, planLibraries_of_nodup, List.zip_map_left, List.map_map]
  · rfl
  · rw [List.map_fst_zip (Nat.le_of_eq (by rw [List.length_map, length_collected]))]
    exact hmodules

lemma length_libraryPlans : (libraryPlans files).length = files.length := by
  rw [libraryPlans_eq hmodules, List.length_map, List.length_zip, length_collected, Nat.min_self]

lemma getElem?_libraryPlans_none {i : Nat} (hf : files[i]? = none) :
    (libraryPlans files)[i]? = none := by
  rw [List.getElem?_eq_none_iff] at hf ⊢
  rwa [length_libraryPlans hmodules]

/-- Every file has a library. -/
lemma exists_libraryPlan {i : Nat} {f : ReadFile} (hf : files[i]? = some f) :
    ∃ g, (f, g) ∈ files.zip (collect files).2 ∧
      (libraryPlans files)[i]? = some ⟨f.place.module, [g]⟩ := by
  have hlt : i < (collect files).2.length := by
    rw [length_collected]
    exact (List.getElem?_eq_some_iff.mp hf).1
  have hzip : (files.zip (collect files).2)[i]? = some (f, (collect files).2[i]) :=
    List.getElem?_zip_eq_some.mpr ⟨hf, List.getElem?_eq_getElem hlt⟩
  refine ⟨_, List.mem_of_getElem? hzip, ?_⟩
  rw [libraryPlans_eq hmodules, List.getElem?_map, hzip]
  rfl

variable (hnumbered : Numbered files)
include hnumbered

/-- A library of the run is that of the file with its number. -/
lemma getElem?_libraryPlans {i : Nat} {plan : LibraryPlan}
    (h : (libraryPlans files)[i]? = some plan) : ∃ f g, (f, g) ∈ files.zip (collect files).2 ∧
      files[i]? = some f ∧ f.place.file = i ∧ plan = ⟨f.place.module, [g]⟩ := by
  rw [libraryPlans_eq hmodules, List.getElem?_map, Option.map_eq_some_iff] at h
  obtain ⟨⟨f, g⟩, hzip, rfl⟩ := h
  obtain ⟨hf, -⟩ := List.getElem?_zip_eq_some.mp hzip
  exact ⟨f, g, List.mem_of_getElem? hzip, hf, hnumbered.file_eq hf, rfl⟩

end

/-! ## Prepared sessions -/

/-- The paths of the declarations of a file that have a name of their own. -/
def SymbolTable.namedPaths (t : SymbolTable) (file : Nat) : List DeclPath :=
  (t.ofFile file).filterMap fun entry => if entry.2.isNamed then some entry.2.path else none

lemma SymbolTable.namedPaths_bare (t : SymbolTable) (file : Nat) :
    t.bare.namedPaths file = t.namedPaths file := by
  rw [namedPaths, namedPaths, ofFile, ofFile, toList_bare, List.filter_map, List.filterMap_map]
  rfl

/-- A session in which names are given and nothing else has happened. -/
structure Session.Unused (options : GenerationOptions) (s : Session) : Prop where
  policy : s.policy = options.policy
  log : s.log = { mode := options.mode }
  current : s.current = none
  imports : s.imports = []
  scopes : s.scopes = []
  expanding : s.expanding = []
  detachment : s.detachment = 0

lemma prepare_unused {table : SymbolTable} {options : GenerationOptions} {plans : List LibraryPlan}
    {session : Session} (hprepare : Session.prepare table options plans = .ok session) :
    session.Unused options := by
  obtain ⟨-, hnames, -⟩ := prepare_opened hprepare
  have hkept := hnames.kept
  rw [Session.kept_foldl_open] at hkept
  constructor <;> rw [hkept] <;> rfl

/-- Twins in which nothing has happened are alike, once diagnostics point to one place. -/
lemma Twins.Alike.unused {r : Twins} {options : GenerationOptions} (notes : List Diagnostic)
    (h : r.left.Unused options) (h' : r.right.Unused options) (span : Span) :
    r.Alike notes (r.left.pointAt span) (r.right.pointAt span) where
  names := ⟨rfl, rfl, rfl, rfl⟩
  names_right := ⟨rfl, rfl, rfl, rfl⟩
  policy := h'.policy.trans h.policy.symm
  log := h'.log.trans h.log.symm
  entries d hd := by
    have hentries : r.left.log.entries = [] := by rw [h.log]
    rw [show (r.left.pointAt span).log = r.left.log from rfl, hentries] at hd
    cases hd
  current := h'.current.trans (congrArg (Option.map r.ρ.library) h.current).symm
  imports := h'.imports.trans (congrArg (List.map _) h.imports).symm
  position := rfl
  scopes := h'.scopes.trans h.scopes.symm
  expanding := h'.expanding.trans (congrArg (List.map r.ρ.symbol) h.expanding).symm
  detachment := h'.detachment.trans h.detachment.symm

/-- **A prepared session of files that go into libraries of their own.** -/
structure Session.OnePerFile (files : List ReadFile) (s : Session) : Prop where
  ready : s.Ready (collect files).1 (libraryPlans files)
  libraryOf? : ∀ file, s.libraryOf? file = if file < files.length then some file else none
  library_name : ∀ i, (s.library? i).map (·.name) = files[i]?.map (·.place.module)
  name : ∀ id symbol f, (collect files).1.get? id = some symbol → symbol.isNamed = true →
    files[symbol.file]? = some f → (s.registry.find? symbol.path).map (·.name) =
      (((Library.withCoreNames symbol.file f.place.module).nameAll
        ((collect files).1.namedPaths symbol.file)).1.find? symbol.path).map (·.name)

/-- The library with the number of a file names the declarations of that file. -/
lemma Session.ownPaths_eq_namedPaths {s : Session} {count file : Nat}
    (hlibraryOf : ∀ file, s.libraryOf? file = if file < count then some file else none)
    (hlt : file < count) (t : SymbolTable) : s.ownPaths file t.toList = t.namedPaths file := by
  rw [SymbolTable.namedPaths, SymbolTable.ofFile, List.filterMap_filter]
  refine List.filterMap_congr fun entry _ => ?_
  rw [Session.ownPath?, hlibraryOf]
  by_cases he : entry.2.file = file
  · simp [he, hlt]
  · have hne : (if entry.2.file < count then some entry.2.file else none) ≠ some file := by
      split_ifs
      · exact fun h => he (Option.some.inj h)
      · exact fun h => by cases h
    simp [he, hne]

/-- **Preparing gives such a session.** -/
lemma prepare_onePerFile {files : List ReadFile} {options : GenerationOptions} {session : Session}
    (hdistinguished : Distinguished files) (hnumbered : Numbered files)
    (hprepare : Session.prepare (collect files).1 options (libraryPlans files) = .ok session) :
    session.OnePerFile files := by
  have hmodules := hdistinguished.modules
  obtain ⟨other, hother, hready⟩ := prepare_session (collect files).1 options (libraryPlans files)
  rw [Except.ok.inj (hother.symm.trans hprepare)] at hready
  obtain ⟨-, hnames, -⟩ := prepare_opened hprepare
  have hlibraryOf : ∀ file, session.libraryOf? file =
      if file < files.length then some file else none := by
    intro file
    rw [hnames.libraryOf?_eq, libraryOf?_opened, length_libraryPlans hmodules]
    intro i plan hplan
    obtain ⟨f, g, hzip, -, rfl, rfl⟩ := getElem?_libraryPlans hmodules hnumbered hplan
    exact congrArg (fun file => [file]) (collected_file hzip)
  have hnested : Catalogue.Nested _ (defineFiles _ files).1 :=
    collect_nested files hdistinguished.top hmodules
  refine ⟨hready, hlibraryOf, fun i => ?_, fun id symbol f hid hnamed hf => ?_⟩
  · cases hf : files[i]? with
    | none =>
        have hsize : session.libraries.size ≤ i := by
          rw [hnames.size, Session.size_opened, length_libraryPlans hmodules]
          exact List.getElem?_eq_none_iff.mp hf
        rw [Session.library?, Array.getElem?_eq_none hsize]
        rfl
    | some f =>
        obtain ⟨g, -, hplan⟩ := exists_libraryPlan hmodules hf
        rw [(prepare_plan hprepare hnested.oneFilePerPath hplan).library, Option.map_some, Library.nameAll,
          Library.name_foldl_nameNext]
        rfl
  · obtain ⟨g, -, hplan⟩ := exists_libraryPlan hmodules hf
    have hlt := (List.getElem?_eq_some_iff.mp hf).1
    have hlibrary : session.libraryOf? symbol.file = some symbol.file := by
      rw [hlibraryOf, if_pos hlt]
    rw [(prepare_plan hprepare hnested.oneFilePerPath hplan).record symbol.path
      ⟨id, symbol, hid, hnamed, hlibrary, rfl⟩, Session.ownPaths_eq_namedPaths hlibraryOf hlt]

/-! ## Two runs -/

namespace Reordered

variable {σ : Equiv.Perm Nat} {files files' : List ReadFile} (h : Reordered σ files files')
include h

/-- A file has its place in both runs. -/
lemma getElem? (hnumbered : Numbered files) (hnumbered' : Numbered files') (i : Nat) :
    files'[σ i]? = files[i]?.map fun f => f.inFile (σ i) := by
  ext g
  rw [hnumbered'.getElem?_iff, Option.map_eq_some_iff, h.perm.mem_iff, List.mem_map]
  constructor
  · rintro ⟨⟨f, hf, rfl⟩, hi⟩
    have hfile : f.place.file = i := σ.injective hi
    exact ⟨f, hnumbered.getElem?_iff.mpr ⟨hf, hfile⟩, by rw [hfile]⟩
  · rintro ⟨f, hf, rfl⟩
    obtain ⟨hmem, rfl⟩ := hnumbered.getElem?_iff.mp hf
    exact ⟨⟨f, hmem, rfl⟩, rfl⟩

/-- Corresponding files give names to the same paths, in the same order. -/
lemma namedPaths (file : Nat) :
    (collect files').1.namedPaths (σ file) = (collect files).1.namedPaths file := by
  have hofFile : (declareFiles files').table.ofFile (σ file) = _ := h.declared.ofFile file
  rw [← SymbolTable.namedPaths_bare, ← (collect files).1.namedPaths_bare, collect_bare, collect_bare,
    SymbolTable.namedPaths_bare, SymbolTable.namedPaths_bare, SymbolTable.namedPaths, hofFile,
    List.filterMap_map]
  refine List.filterMap_congr fun entry _ => ?_
  rfl

variable {session session' : Session} (hsession : session.OnePerFile files)
  (hsession' : session'.OnePerFile files') (hnumbered : Numbered files)
  (hnumbered' : Numbered files')
include hsession hsession' hnumbered hnumbered'

/-- A declaration has the same name in both runs. -/
lemma flatName {id : Nat} {symbol : Symbol} (hid : (collect files).1.get? id = some symbol)
    (hkind : symbol.kind.isEmitted = true) :
    session'.flatName symbol = session.flatName symbol := by
  unfold Session.flatName
  cases hexternal : symbol.externalName with
  | some target => rfl
  | none =>
      cases hlegal : symbol.hasLegalName with
      | false => rfl
      | true =>
          have hnamed : symbol.isNamed = true := by
            simp [Symbol.isNamed, hkind, hexternal, hlegal]
          obtain ⟨f, hf⟩ : ∃ f, files[symbol.file]? = some f := by
            have hfile := (collect_complete files id symbol hid).2 hexternal
            rw [hnumbered, List.mem_range] at hfile
            exact ⟨_, List.getElem?_eq_getElem hfile⟩
          have hf' := h.getElem? hnumbered hnumbered' symbol.file
          rw [hf, Option.map_some] at hf'
          have hleft := hsession.name id symbol f hid hnamed hf
          have hright := hsession'.name _ (symbol.renumber h.renumbering) _ (h.get?_some hid) hnamed hf'
          have halike := (Library.nameAll_alike symbol.file (σ symbol.file) f.place.module
            ((collect files).1.namedPaths symbol.file)).name symbol.path
          simp only [if_true]
          rw [hleft, ← halike, ← h.namedPaths]
          exact hright

/-- **The two runs are prepared alike.** -/
def twins : Twins where
  ρ := h.renumbering
  left := session
  right := session'
  tables := by
    rw [hsession.ready.table_eq, hsession'.ready.table_eq]
    exact h.tables
  settled := hsession.ready.settled_any
  settled_right := hsession'.ready.settled_any
  flatName id symbol hid hkind := by
    rw [hsession.ready.table_eq] at hid
    exact h.flatName hsession hsession' hnumbered hnumbered' hid hkind
  libraryOf? file := by
    have hplace : files'.length ≤ σ file ↔ files.length ≤ file := by
      rw [← List.getElem?_eq_none_iff, h.getElem? hnumbered hnumbered', Option.map_eq_none_iff,
        List.getElem?_eq_none_iff]
    show session'.libraryOf? (σ file) = (session.libraryOf? file).map σ
    rw [hsession.libraryOf?, hsession'.libraryOf?]
    simp only [← Nat.not_le, hplace]
    split_ifs <;> rfl
  library_name library := by
    show (session'.library? (σ library)).map (·.name) = _
    rw [hsession.library_name, hsession'.library_name, h.getElem? hnumbered hnumbered',
      Option.map_map]
    rfl

end Reordered

end Interop
