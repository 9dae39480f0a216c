import Interop.Generation.Run
import Interop.Proofs.Declared
import Interop.Proofs.Modules
import Interop.Proofs.Trace

/-!
# Preparing a run

Before anything is written, every library is opened and every declaration that can be written is
named.  That succeeds for any table and any libraries.  It does not depend on the report mode, since
nothing is reported on the way.

* `Session.inMode` — a session with another report mode.
* `Session.Ready` — a session in which writing can begin.
* **`prepare_ready`** — preparing gives such a session, the same one in both modes.
* `Session.Ready.settled` — writing can count on all names; only faults of the table remain.
-/

namespace Interop

namespace Session

/-- A session with another report mode. -/
def inMode (s : Session) (mode : ReportMode) : Session :=
  { s with log := { s.log with mode } }

lemma Settled.inMode {may : Failure → Prop} {s : Session} (h : s.Settled may)
    (mode : ReportMode) : (s.inMode mode).Settled may :=
  h.congr rfl rfl rfl rfl

/-- Files belong to libraries that are there. -/
def Assigned (s : Session) : Prop :=
  ∀ file library, s.libraryOf? file = some library → library < s.libraries.size

lemma assigned_start (table : SymbolTable) (mode : ReportMode) (policy : UnionPolicy) :
    (Session.start table mode policy).Assigned := by
  intro file library h
  cases h

/-! ## Opening libraries -/

lemma open_eq (s : Session) (plan : LibraryPlan) :
    s.open plan =
      { s with libraries := s.libraries.push (.withCoreNames s.libraries.size plan.name),
               assignments := (plan.files.map fun f => (f.file, s.libraries.size)).reverse ++
                 s.assignments } := by
  have hassign : ∀ (files : List CollectedFile) (library : Nat) (s : Session),
      files.foldl (fun opened f => opened.assign f.file library) s =
        { s with assignments := (files.map fun f => (f.file, library)).reverse ++
                   s.assignments } := by
    intro files library
    induction files with
    | nil => intro s; rfl
    | cons f rest ih =>
        intro s
        rw [List.foldl_cons, ih]
        simp [assign]
  exact hassign plan.files s.libraries.size (s.addLibrary plan.name)

lemma inMode_open (s : Session) (plan : LibraryPlan) (mode : ReportMode) :
    (s.inMode mode).open plan = (s.open plan).inMode mode := by
  rw [open_eq, open_eq]
  rfl

/-- The entry of a file is one of those just made, or an earlier one. -/
lemma libraryOf?_open (s : Session) (plan : LibraryPlan) (file : Nat) :
    (s.open plan).libraryOf? file =
      if file ∈ plan.files.map (·.file) then some s.libraries.size else s.libraryOf? file := by
  have hlookup : ∀ files : List Nat,
      (files.map fun f => (f, s.libraries.size)).lookup file =
        if file ∈ files then some s.libraries.size else none := by
    intro files
    induction files with
    | nil => rfl
    | cons f rest ih =>
        by_cases h : file = f
        · simp [h]
        · have hne : (file == f) = false := by simpa using h
          simp [List.lookup_cons, hne, h, ih]
  have hreverse : (plan.files.map fun f => (f.file, s.libraries.size)).reverse =
      (plan.files.map (·.file)).reverse.map fun f => (f, s.libraries.size) := by
    simp [Function.comp_def]
  rw [open_eq]
  simp only [libraryOf?, List.lookup_append, hreverse, hlookup, List.mem_reverse]
  split_ifs <;> rfl

/-- The libraries that are opened follow those that are there, each with the core names alone. -/
lemma libraries_foldl_open : ∀ (plans : List LibraryPlan) (s : Session),
    (plans.foldl Session.open s).libraries.toList = s.libraries.toList ++
      (plans.zipIdx s.libraries.size).map fun unit => .withCoreNames unit.2 unit.1.name
  | [], s => by simp
  | plan :: plans, s => by
      rw [List.foldl_cons, libraries_foldl_open plans, open_eq, List.zipIdx_cons, List.map_cons]
      simp

/-- A plan has the library of its number. -/
lemma library?_opened (table : SymbolTable) (mode : ReportMode) (policy : UnionPolicy)
    (plans : List LibraryPlan) (i : Nat) :
    (plans.foldl Session.open (.start table mode policy)).library? i =
      plans[i]?.map fun plan => .withCoreNames i plan.name := by
  rw [library?, ← Array.getElem?_toList, libraries_foldl_open]
  simp [start, Function.comp_def]

lemma size_opened {table : SymbolTable} {mode : ReportMode} {policy : UnionPolicy}
    (plans : List LibraryPlan) :
    (plans.foldl Session.open (.start table mode policy)).libraries.size = plans.length := by
  rw [← Array.length_toList, libraries_foldl_open]
  simp [start]

/-- Opening libraries touches nothing else. -/
lemma kept_foldl_open : ∀ (plans : List LibraryPlan) (s : Session), plans.foldl Session.open s =
    { s with libraries := (plans.foldl Session.open s).libraries,
             assignments := (plans.foldl Session.open s).assignments }
  | [], _ => rfl
  | plan :: plans, s => by
      rw [List.foldl_cons, kept_foldl_open plans, open_eq]

lemma Assigned.open {s : Session} (h : s.Assigned) (plan : LibraryPlan) :
    (s.open plan).Assigned := by
  intro file library hfile
  have hsize : (s.open plan).libraries.size = s.libraries.size + 1 := by
    rw [open_eq]
    exact Array.size_push _
  rw [libraryOf?_open] at hfile
  rw [hsize]
  split_ifs at hfile with hmem
  · obtain rfl := Option.some.inj hfile
    omega
  · have := h file library hfile
    omega

lemma Assigned.foldl_open : ∀ (plans : List LibraryPlan) {s : Session}, s.Assigned →
    (plans.foldl Session.open s).Assigned
  | [], _, h => h
  | plan :: plans, _, h => Assigned.foldl_open plans (h.open plan)

lemma inMode_foldl_open (mode : ReportMode) : ∀ (plans : List LibraryPlan) (s : Session),
    plans.foldl Session.open (s.inMode mode) = (plans.foldl Session.open s).inMode mode
  | [], _ => rfl
  | plan :: plans, s => by
      rw [List.foldl_cons, List.foldl_cons, inMode_open, inMode_foldl_open mode plans]

/-- A file of a library that is opened has a library then, and one that had a library still has. -/
lemma isSome_libraryOf?_foldl_open {file : Nat} : ∀ (plans : List LibraryPlan) (s : Session),
    ((s.libraryOf? file).isSome ∨ ∃ plan ∈ plans, file ∈ plan.files.map (·.file)) →
      ((plans.foldl Session.open s).libraryOf? file).isSome
  | [], s, h => h.resolve_right (by simp)
  | plan :: plans, s, h => by
      refine isSome_libraryOf?_foldl_open plans (s.open plan) ?_
      rw [libraryOf?_open]
      by_cases hfile : file ∈ plan.files.map (·.file)
      · exact Or.inl (by rw [if_pos hfile]; rfl)
      · rw [if_neg hfile]
        refine h.imp_right ?_
        rintro ⟨other, hother, hmem⟩
        rcases List.mem_cons.mp hother with rfl | hother
        · exact absurd hmem hfile
        · exact ⟨other, hother, hmem⟩

/-! ## Naming declarations -/

/-- What naming declarations does not touch.  Records stay. -/
structure Names (s t : Session) : Prop where
  kept : t = { s with registry := t.registry, libraries := t.libraries, position := t.position }
  size : t.libraries.size = s.libraries.size
  record : ∀ path record, s.registry.find? path = some record → t.registry.find? path = some record

namespace Names

variable {s t u : Session}

lemma refl (s : Session) : s.Names s :=
  ⟨rfl, rfl, fun _ _ h => h⟩

lemma trans (h : s.Names t) (k : t.Names u) : s.Names u where
  kept := by rw [k.kept, h.kept]
  size := k.size.trans h.size
  record path record hs := k.record path record (h.record path record hs)

lemma libraryOf?_eq (h : s.Names t) (file : Nat) : t.libraryOf? file = s.libraryOf? file := by
  rw [h.kept]
  rfl

lemma assigned (h : s.Names t) (hs : s.Assigned) : t.Assigned := by
  intro file library hfile
  rw [h.size]
  exact hs file library (h.libraryOf?_eq file ▸ hfile)

end Names

end Session

open Work

/-- What has no name of its own is passed over, and so is what is in no library. -/
lemma exec_nameSymbol_of_not {symbol : Symbol} {s : Session}
    (h : symbol.isNamed = false ∨ s.libraryOf? symbol.file = none) :
    (nameSymbol symbol).exec s = (.ok (), s) := by
  unfold nameSymbol
  rw [exec_get_bind]
  rcases h with h | h
  · simp only [h]
    rfl
  · simp only [h]
    cases symbol.isNamed <;> rfl

lemma exec_nameSymbol {symbol : Symbol} {s : Session} {library : Nat} {lib : Library}
    (hnamed : symbol.isNamed = true) (hfile : s.libraryOf? symbol.file = some library)
    (hlib : s.library? library = some lib) :
    (nameSymbol symbol).exec s =
      (.ok (), { s with position := symbol.span,
                        registry := (s.registry.allocate symbol.path lib).2.1,
                        libraries := s.libraries.setIfInBounds library
                          (s.registry.allocate symbol.path lib).2.2 }) := by
  have hlib' : (s.pointAt symbol.span).library? library = some lib := hlib
  unfold nameSymbol
  rw [exec_get_bind]
  simp only [hnamed, hfile]
  rw [exec_bind, exec_modify]
  simp only [next]
  rw [exec_discard, exec_allocate hlib']
  rfl

/-- Whether a declaration is named does not depend on the mode, and nothing fails. -/
lemma nameSymbol_names (symbol : Symbol) {s : Session} (hs : s.Assigned) :
    ∃ t, s.Names t ∧ (∀ mode, (nameSymbol symbol).exec (s.inMode mode) = (.ok (), t.inMode mode)) ∧
      (symbol.isNamed = true → ∀ library, s.libraryOf? symbol.file = some library →
        ∃ record, t.registry.find? symbol.path = some record) := by
  cases hnamed : symbol.isNamed with
  | false => exact ⟨s, .refl s, fun mode => exec_nameSymbol_of_not (Or.inl hnamed), by simp⟩
  | true =>
      cases hfile : s.libraryOf? symbol.file with
      | none => exact ⟨s, .refl s, fun mode => exec_nameSymbol_of_not (Or.inr hfile), by simp⟩
      | some library =>
          obtain ⟨lib, hlib⟩ : ∃ lib, s.library? library = some lib :=
            ⟨_, Array.getElem?_eq_getElem (hs _ _ hfile)⟩
          obtain ⟨hnew, hold⟩ := s.registry.find?_allocate symbol.path lib
          refine ⟨{ s with
            position := symbol.span,
            registry := (s.registry.allocate symbol.path lib).2.1,
            libraries := s.libraries.setIfInBounds library
              (s.registry.allocate symbol.path lib).2.2 }, ⟨rfl, ?_, hold⟩, ?_, fun _ _ _ => hnew⟩
          · exact Array.size_setIfInBounds
          · exact fun mode => exec_nameSymbol (s := s.inMode mode) hnamed hfile hlib

/-- Naming one symbol after another. -/
lemma nameSymbols_names : ∀ (symbols : List (Nat × Symbol)) {s : Session}, s.Assigned →
    ∃ t, s.Names t ∧
      (∀ mode, (symbols.forM fun (_, symbol) => nameSymbol symbol).exec (s.inMode mode) =
        (.ok (), t.inMode mode)) ∧
      ∀ entry ∈ symbols, entry.2.isNamed = true → ∀ library,
        s.libraryOf? entry.2.file = some library →
          ∃ record, t.registry.find? entry.2.path = some record
  | [], s, _ => ⟨s, .refl s, fun _ => rfl, by simp⟩
  | (id, symbol) :: rest, s, hs => by
      obtain ⟨t, hst, hexec, hnamed⟩ := nameSymbol_names symbol hs
      obtain ⟨u, htu, hrest, hothers⟩ := nameSymbols_names rest (hst.assigned hs)
      refine ⟨u, hst.trans htu, ?_, ?_⟩
      · intro mode
        show (nameSymbol symbol >>= fun _ =>
          rest.forM fun (_, symbol) => nameSymbol symbol).exec _ = _
        rw [exec_bind, hexec mode]
        exact hrest mode
      · intro entry hentry hn library hfile
        rcases List.mem_cons.mp hentry with rfl | hentry
        · obtain ⟨record, hrecord⟩ := hnamed hn library hfile
          exact ⟨record, htu.record _ _ hrecord⟩
        · exact hothers entry hentry hn library (hst.libraryOf?_eq _ ▸ hfile)

/-! ## Prepared sessions -/

/-- **A session in which writing can begin.**  Nothing is reported or imported yet, the files of all
libraries are assigned, and what can be named is named. -/
structure Session.Ready (table : SymbolTable) (plans : List LibraryPlan) (s : Session) : Prop where
  table_eq : s.table = table
  entries : s.log.entries = []
  imports : s.imports = []
  assigned : ∀ plan ∈ plans, ∀ f ∈ plan.files, (s.libraryOf? f.file).isSome
  library : ∀ file library, s.libraryOf? file = some library → ∃ lib, s.library? library = some lib
  named : ∀ id symbol library, table.get? id = some symbol → symbol.isNamed = true →
    s.libraryOf? symbol.file = some library → ∃ record, s.registry.find? symbol.path = some record

/-- **Preparing succeeds**, for any table and any libraries, and alike in both modes. -/
theorem prepare_ready (table : SymbolTable) (policy : UnionPolicy) (merge : Option String)
    (plans : List LibraryPlan) :
    ∃ s : Session, s.Ready table plans ∧
      ∀ mode, Session.prepare table ⟨mode, policy, merge⟩ plans = .ok (s.inMode mode) := by
  have hkept := Session.kept_foldl_open plans (.start table .batch policy)
  have hfiles : ∀ plan ∈ plans, ∀ f ∈ plan.files,
      ((plans.foldl Session.open (.start table .batch policy)).libraryOf? f.file).isSome :=
    fun plan hplan f hf => Session.isSome_libraryOf?_foldl_open plans _
      (Or.inr ⟨plan, hplan, List.mem_map_of_mem hf⟩)
  have hopen : ∀ mode, plans.foldl Session.open (.start table mode policy) =
      (plans.foldl Session.open (.start table .batch policy)).inMode mode := fun mode =>
    Session.inMode_foldl_open mode plans (.start table .batch policy)
  have hassigned := (Session.assigned_start table .batch policy).foldl_open plans
  generalize plans.foldl Session.open (.start table .batch policy) = opened at *
  obtain ⟨s, hnames, hexec, hnamed⟩ := nameSymbols_names table.toList hassigned
  have hs := hnames.kept
  rw [hkept] at hs
  refine ⟨s, ⟨?_, ?_, ?_, ?_, ?_, ?_⟩, ?_⟩
  · rw [hs]
    rfl
  · rw [hs]
    rfl
  · rw [hs]
    rfl
  · intro plan hplan f hf
    rw [hnames.libraryOf?_eq]
    exact hfiles plan hplan f hf
  · intro file library hfile
    exact ⟨_, Array.getElem?_eq_getElem (hnames.assigned hassigned file library hfile)⟩
  · intro id symbol library hid hn hfile
    exact hnamed _ (SymbolTable.mem_toList hid) hn library (hnames.libraryOf?_eq _ ▸ hfile)
  · intro mode
    have hrun : (nameSymbols table).run.run (opened.inMode mode) = (.ok (), s.inMode mode) :=
      hexec mode
    simp only [Session.prepare, hopen mode, hrun]

/-- **Writing can count on names.**  If only running out of steps is to be expected, no symbol may
lack what its kind needs. -/
lemma Session.Ready.settled {table : SymbolTable} {plans : List LibraryPlan} {s : Session}
    {may : Failure → Prop} (h : s.Ready table plans) (exhausted : may .exhausted)
    (foreign : ∀ id symbol, table.get? id = some symbol → symbol.kind.isEmitted = true →
      symbol.externalName = none → s.libraryOf? symbol.file = none →
        may (.structural symbol.span (.foreignFile symbol.path)))
    (signature : ∀ id symbol, table.get? id = some symbol → symbol.kind = .function →
      symbol.callSignatures.isEmpty = true →
        may (.structural symbol.span (.noSignature symbol.name)))
    (type : ∀ id symbol, table.get? id = some symbol → symbol.kind = .variable →
      symbol.properties.isEmpty = true → may (.structural symbol.span (.noType symbol.name))) :
    s.Settled may where
  exhausted := exhausted
  foreign := h.table_eq ▸ foreign
  named id symbol library hid hkind hexternal hlegal hfile := by
    refine ⟨h.library _ _ hfile, h.named id symbol library (h.table_eq ▸ hid) ?_ hfile⟩
    simp [Symbol.isNamed, hkind, hexternal, hlegal]
  signature := h.table_eq ▸ signature
  type := h.table_eq ▸ type

/-- Whatever is to be expected otherwise, writing does not ask for names that are missing. -/
lemma Session.Ready.settled_any {table : SymbolTable} {plans : List LibraryPlan} {s : Session}
    (h : s.Ready table plans) : s.Settled fun _ => True :=
  h.settled trivial (fun _ _ _ _ _ _ => trivial) (fun _ _ _ _ _ => trivial)
    fun _ _ _ _ _ => trivial

lemma Session.Ready.inMode {table : SymbolTable} {plans : List LibraryPlan} {s : Session}
    (h : s.Ready table plans) (mode : ReportMode) : (s.inMode mode).Ready table plans :=
  ⟨h.table_eq, h.entries, h.imports, h.assigned, h.library, h.named⟩

/-- Preparing succeeds, whatever is chosen for the run. -/
lemma prepare_session (table : SymbolTable) (options : GenerationOptions)
    (plans : List LibraryPlan) :
    ∃ session, Session.prepare table options plans = .ok session ∧ session.Ready table plans := by
  obtain ⟨s, hready, hprepare⟩ := prepare_ready table options.policy options.merge plans
  exact ⟨s.inMode options.mode, hprepare options.mode, hready.inMode options.mode⟩

/-! ## Runs -/

/-- What a run gives once its files are read and it is prepared. -/
lemma generate_eq {files : List SourceFile} {programs : List Source.Program}
    {options : GenerationOptions} {session : Session}
    (hread : files.mapM SourceFile.read = .ok programs)
    (hprepare : Session.prepare (planRun options.merge files programs).table options
      (planRun options.merge files programs).libraries = .ok session) :
    generate files options =
      .ok ((writeLibraries 0 (planRun options.merge files programs).libraries).run session).1 := by
  simp only [generate, hread, bind, Except.bind, hprepare, pure, Except.pure]

/-- A run whose files cannot be read gives nothing in either mode. -/
lemma generate_error {files : List SourceFile} {rejection : Rejection}
    (hread : files.mapM SourceFile.read = .error rejection) (options : GenerationOptions) :
    generate files options = .error rejection := by
  unfold generate
  rw [hread]
  rfl

/-- A file is read by its language, if its declarations fit together. -/
lemma SourceFile.read_of_parse {file : SourceFile} {program : Source.Program}
    (hlanguage : Source.Language.ofPath file.path = .declarations)
    (hparse : Source.parse .declarations file.text = some program)
    (hformed : program.isWellFormed = true) : file.read = .ok program := by
  simp only [SourceFile.read, hlanguage, hparse, hformed, if_true]

/-- A single file keeps its stem. -/
lemma placeFiles_singleton (file : SourceFile) (program : Source.Program) {stem : String}
    (hstem : moduleStem file.path = stem) : placeFiles [file] [program] =
      [⟨file.path, { file := 0, module := stem, source := file.text }, program⟩] := by
  have hnames : moduleNames [file.path] = [stem] :=
    moduleNames_of_stems (by rw [List.map_singleton, hstem]) (List.nodup_singleton stem)
  rw [placeFiles, List.map_singleton, hnames]
  rfl

/-- The plan of a run whose files are placed. -/
def planPlaced (merge : Option String) (placed : List ReadFile) : RunPlan :=
  ⟨(collect placed).1,
    planLibraries merge ((placed.map (·.place.module)).zip (collect placed).2)⟩

lemma planRun_eq (merge : Option String) (files : List SourceFile)
    (programs : List Source.Program) :
    planRun merge files programs = planPlaced merge (placeFiles files programs) :=
  rfl

/-- What a run gives once its files are read and placed. -/
lemma generate_of_placed {files : List SourceFile} {programs : List Source.Program}
    {options : GenerationOptions} {placed : List ReadFile} {libraries : List OutputLibrary}
    (hread : files.mapM SourceFile.read = .ok programs)
    (hplaced : placeFiles files programs = placed)
    (hrun : (Session.prepare (planPlaced options.merge placed).table options
        (planPlaced options.merge placed).libraries).map (fun session =>
          ((writeLibraries 0 (planPlaced options.merge placed).libraries).run session).1) =
      .ok libraries) :
    generate files options = .ok libraries := by
  subst hplaced
  obtain ⟨session, hprepare, -⟩ := prepare_session (planRun options.merge files programs).table
    options (planRun options.merge files programs).libraries
  rw [← planRun_eq, hprepare] at hrun
  rw [generate_eq hread hprepare]
  exact congrArg Except.ok (Except.ok.inj hrun)

lemma moduleStem_of_fileName {path name : String} (h : fileName path = name) :
    moduleStem path =
      (moduleEndings.findSome? fun ending => beforeEnding ending name).getD name := by
  rw [moduleStem, h]

lemma SourceFile.mapM_read_singleton {file : SourceFile} {program : Source.Program}
    (hread : file.read = .ok program) : [file].mapM SourceFile.read = .ok [program] := by
  rw [List.mapM_cons, List.mapM_nil, hread]
  rfl

/-- What a run gives for a single file, once it is read. -/
lemma generate_singleton {file : SourceFile} {program : Source.Program} {stem : String}
    {options : GenerationOptions} {libraries : List OutputLibrary}
    (hread : file.read = .ok program) (hstem : moduleStem file.path = stem)
    (hrun : let placed : List ReadFile :=
        [⟨file.path, { file := 0, module := stem, source := file.text }, program⟩]
      (Session.prepare (planPlaced options.merge placed).table options
        (planPlaced options.merge placed).libraries).map (fun session =>
          ((writeLibraries 0 (planPlaced options.merge placed).libraries).run session).1) =
      .ok libraries) : generate [file] options = .ok libraries :=
  generate_of_placed (SourceFile.mapM_read_singleton hread)
    (placeFiles_singleton file program hstem) hrun

end Interop
