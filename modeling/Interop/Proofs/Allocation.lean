import Interop.Proofs.Completeness
import Interop.Proofs.Filling
import Interop.Proofs.Isolation
import Mathlib.Logic.Relation

/-!
# All names are given before anything is written

Asking for the name of a declaration may give it one.  Preparing a run asks for all of them in the
order of registration, and nothing that happens later asks for another: whatever is written,
rendered, compared or merged then, the registry and the libraries stay as they are.  A name was so
chosen by the declarations of its own library alone.

* `Session.Activity` — one thing that may happen once a run is prepared.
* `Session.SameNames` — sessions with the same names; **`Session.SameNames.later`** — whatever
  happens keeps them.
* `Library.nameAll` — the names that a library gives to paths when it is the only one.
* **`prepare_names`** — the names of a run are those that every library gives alone, and stay.
-/

namespace Interop

open Source Work

/-! ## What may happen later -/

/-- **One thing that may happen once a run is prepared.**  Computations are among them whether they
succeed or fail, and scopes and detachment may be entered and left around any of them. -/
inductive Session.Activity : Session → Session → Prop
  | enter (s : Session) (library : Nat) : Activity s (s.enter library)
  | pointAt (s : Session) (span : Span) : Activity s (s.pointAt span)
  | pushScope (s : Session) (names : List String) : Activity s (s.pushScope names)
  | popScope (s : Session) : Activity s s.popScope
  | pushAlias (s : Session) (id : Nat) : Activity s (s.pushAlias id)
  | popAlias (s : Session) : Activity s s.popAlias
  | detach (s : Session) : Activity s s.detach
  | attach (s : Session) : Activity s s.attach
  | takeDiagnostics (s : Session) : Activity s (takeDiagnostics.run s).2
  /-- The declarations of a file are written. -/
  | file (s : Session) (f : CollectedFile) : Activity s (f.items.exec s).2
  /-- A declaration that stands in the output is named. -/
  | name (s : Session) (id : Nat) (symbol : Symbol) : s.table.get? id = some symbol →
      symbol.kind.isEmitted = true → Activity s ((nameOf id).exec s).2
  | render (s : Session) (ty : Ty) (o : RenderOptions) : Activity s ((Interop.render ty o).exec s).2
  | key (s : Session) (ty : Ty) : Activity s ((typeKey ty).exec s).2
  /-- Types are merged into those that differ. -/
  | distinct (s : Session) (tys : List Ty) : Activity s ((distinctTypes tys).exec s).2
  /-- Signatures are merged into one. -/
  | signatures (s : Session) (first : Signature) (others : List Signature) :
      Activity s ((mergeSignatures first others).exec s).2
  /-- Members are grouped and merged. -/
  | members (s : Session) (members : List Member) : Activity s ((mergeMembers members).exec s).2

/-- What a session becomes by any activities, one after another. -/
abbrev Session.Later : Session → Session → Prop :=
  Relation.ReflTransGen Session.Activity

namespace Session

/-! ## Names stay -/

/-- Sessions over one table with the same names. -/
structure SameNames (s t : Session) : Prop where
  table : t.table = s.table
  registry : t.registry = s.registry
  libraries : t.libraries = s.libraries
  assignments : t.assignments = s.assignments

namespace SameNames

variable {s t u : Session} {may : Failure → Prop}

lemma refl (s : Session) : s.SameNames s :=
  ⟨rfl, rfl, rfl, rfl⟩

lemma trans (h : s.SameNames t) (k : t.SameNames u) : s.SameNames u :=
  ⟨k.table.trans h.table, k.registry.trans h.registry, k.libraries.trans h.libraries,
    k.assignments.trans h.assignments⟩

lemma settled (h : s.SameNames t) (hs : s.Settled may) : t.Settled may :=
  hs.congr h.table h.registry h.libraries h.assignments

/-- A computation with a trace gives no name. -/
lemma exec {α : Type} {w : Work α} (hw : w.Traced may s.table) (hs : s.Settled may) :
    s.SameNames (w.exec s).2 := by
  have h := (Leaves.exec hw hs).kept
  constructor <;> rw [h] <;> rfl

/-- **One activity gives no name**, in a session in which all names are there. -/
lemma activity (h : s.Activity t) (hs : s.Settled may) : s.SameNames t := by
  cases h with
  | enter | pointAt | pushScope | popScope | pushAlias | popAlias | detach | attach
  | takeDiagnostics => exact ⟨rfl, rfl, rfl, rfl⟩
  | file f => exact exec f.items_traced hs
  | name id symbol hid hkind => exact exec (.nameOf hid hkind) hs
  | render ty o => exact exec (render_traced ty o) hs
  | key ty => exact exec (Renderer.Traced.key render_traced ty) hs
  | distinct tys => exact exec (distinctTypes_traced tys) hs
  | signatures first others => exact exec (mergeSignatures_traced first others) hs
  | members members => exact exec (mergeMembers_traced members) hs

/-- **Nothing that happens later gives a name.** -/
theorem later (h : s.Later t) (hs : s.Settled may) : s.SameNames t := by
  induction h with
  | refl => exact refl s
  | tail _ hactivity ih => exact ih.trans (activity hactivity (ih.settled hs))

end SameNames

/-! ## Writing a run is made of activities -/

variable {s t : Session}

lemma Later.filesItems : ∀ (files : List CollectedFile) {t : Session}, s.Later t →
    s.Later ((Interop.filesItems files).run t).2
  | [], _, h => h
  | f :: rest, t, h => by
      have hfile : s.Later (f.after t) := (h.tail (.file t f)).tail (.takeDiagnostics _)
      cases hitems : (f.items.exec t).1 with
      | error failure =>
          rw [filesItems_cons_error hitems]
          exact hfile
      | ok items =>
          rw [filesItems_cons_ok hitems]
          exact Later.filesItems rest hfile

lemma Later.writeLibraries : ∀ (plans : List LibraryPlan) (first : Nat) {t : Session}, s.Later t →
    s.Later ((Interop.writeLibraries first plans).run t).2
  | [], _, _, h => h
  | plan :: plans, first, t, h => by
      have hlibrary : s.Later ((writeLibrary first plan.name plan.files).run t).2 := by
        rw [writeLibrary_run]
        exact Later.filesItems plan.files (h.tail (.enter t first))
      exact Later.writeLibraries plans (first + 1) hlibrary

end Session

/-! ## A library alone -/

/-- Give one more path its name, where there is only one library. -/
def Library.nameNext (alone : Registry × Library) (path : DeclPath) : Registry × Library :=
  (alone.1.allocate path alone.2).2

/-- The names that a library gives to paths, one after another, when it is the only one. -/
def Library.nameAll (library : Library) (paths : List DeclPath) : Registry × Library :=
  paths.foldl nameNext ({}, library)

/-- A library keeps its own name. -/
lemma Library.name_foldl_nameNext : ∀ (paths : List DeclPath) (alone : Registry × Library),
    (paths.foldl nameNext alone).2.name = alone.2.name
  | [], _ => rfl
  | path :: rest, alone => by
      rw [List.foldl_cons, name_foldl_nameNext rest]
      cases hrecord : alone.1.find? path with
      | some record => rw [nameNext, Registry.allocate_of_find? hrecord]
      | none =>
          rw [nameNext, Registry.allocate_of_new hrecord, insert]
          split_ifs <;> rfl

/-- The path of a declaration that has a name of its own in a library. -/
def Session.ownPath? (s : Session) (library : Nat) (symbol : Symbol) : Option DeclPath :=
  if symbol.isNamed ∧ s.libraryOf? symbol.file = some library then some symbol.path else none

/-- The paths of the declarations that have a name of their own in a library, in the order of their
registration. -/
def Session.ownPaths (s : Session) (library : Nat) (symbols : List (Nat × Symbol)) :
    List DeclPath :=
  symbols.filterMap fun entry => s.ownPath? library entry.2

/-- What a path gets depends on its own record alone, and on the library. -/
lemma Registry.allocate_congr {registry other : Registry} {path : DeclPath} (library : Library)
    (h : registry.find? path = other.find? path) :
    (registry.allocate path library).2.2 = (other.allocate path library).2.2 ∧
      ∀ q, registry.find? q = other.find? q →
        (registry.allocate path library).2.1.find? q =
          (other.allocate path library).2.1.find? q := by
  cases hrecord : registry.find? path with
  | some record =>
      rw [allocate_of_find? hrecord, allocate_of_find? (h ▸ hrecord)]
      exact ⟨rfl, fun _ hq => hq⟩
  | none =>
      rw [allocate_of_new hrecord, allocate_of_new (h ▸ hrecord)]
      refine ⟨rfl, fun q hq => ?_⟩
      rw [find?_append _ _ _ _ hrecord, find?_append _ _ _ _ (h ▸ hrecord), hq]

/-- A path that is named leaves the records of others as they are. -/
lemma Registry.find?_allocate_of_ne {registry : Registry} {path q : DeclPath} (library : Library)
    (h : q ≠ path) : (registry.allocate path library).2.1.find? q = registry.find? q := by
  cases hrecord : registry.find? path with
  | some record => rw [allocate_of_find? hrecord]
  | none => rw [allocate_of_new hrecord, find?_append _ _ _ _ hrecord, if_neg h]

namespace Session

/-- The session has the names in a library that the library gives alone. -/
structure NamesAlone (own : DeclPath → Prop) (library : Nat) (alone : Registry × Library)
    (s : Session) : Prop where
  library : s.library? library = some alone.2
  record : ∀ path, own path → s.registry.find? path = alone.1.find? path

variable {own : DeclPath → Prop} {library : Nat} {s : Session}

/-- **Naming one symbol.**  One of the library gets the name that it gets there alone, and any other
has no effect on the library. -/
lemma NamesAlone.nameSymbol {alone : Registry × Library} (h : s.NamesAlone own library alone)
    (hassigned : s.Assigned) {symbol : Symbol}
    (hown : symbol.isNamed → (own symbol.path ↔ s.libraryOf? symbol.file = some library)) :
    ((Interop.nameSymbol symbol).exec s).2.NamesAlone own library
      ((s.ownPath? library symbol).toList.foldl Library.nameNext alone) := by
  unfold ownPath?
  cases hnamed : symbol.isNamed with
  | false => simpa [exec_nameSymbol_of_not (Or.inl hnamed)] using h
  | true =>
      cases hfile : s.libraryOf? symbol.file with
      | none => simpa [exec_nameSymbol_of_not (Or.inr hfile)] using h
      | some other =>
          obtain ⟨lib, hlib⟩ : ∃ lib, s.library? other = some lib :=
            ⟨_, Array.getElem?_eq_getElem (hassigned _ _ hfile)⟩
          have howns := hown hnamed
          rw [hfile] at howns
          rw [exec_nameSymbol hnamed hfile hlib]
          by_cases hother : other = library
          · subst hother
            obtain rfl : lib = alone.2 := Option.some.inj (hlib.symm.trans h.library)
            obtain ⟨hsame, hrecords⟩ :=
              Registry.allocate_congr alone.2 (h.record symbol.path (howns.mpr rfl))
            rw [if_pos ⟨rfl, rfl⟩]
            refine ⟨?_, fun path hpath => hrecords path (h.record path hpath)⟩
            show (s.libraries.setIfInBounds other _)[other]? = _
            rw [Array.getElem?_setIfInBounds_self_of_lt (hassigned _ _ hfile), hsame]
            rfl
          · rw [if_neg fun hboth => hother (Option.some.inj hboth.2)]
            refine ⟨?_, fun path hpath => ?_⟩
            · show (s.libraries.setIfInBounds other _)[library]? = _
              rw [Array.getElem?_setIfInBounds_ne hother]
              exact h.library
            · have hne : path ≠ symbol.path := by
                rintro rfl
                exact hother (Option.some.inj (howns.mp hpath))
              rw [Registry.find?_allocate_of_ne lib hne]
              exact h.record path hpath

/-- What succeeds in every mode succeeds in the one of the session. -/
lemma Names.exec_eq {t : Session} (hnames : s.Names t) {w : Work Unit}
    (hexec : ∀ mode, w.exec (s.inMode mode) = (.ok (), t.inMode mode)) :
    w.exec s = (.ok (), t) := by
  have hlog : t.log = s.log := by rw [hnames.kept]
  have hsame : t.inMode s.log.mode = t := by rw [← hlog]; rfl
  exact (hexec s.log.mode).trans (congrArg _ hsame)

/-- Naming one symbol succeeds in any session whose libraries are there. -/
lemma exec_nameSymbol_names (symbol : Symbol) (hassigned : s.Assigned) :
    ∃ t, s.Names t ∧ (Interop.nameSymbol symbol).exec s = (.ok (), t) := by
  obtain ⟨t, hnames, hexec, -⟩ := nameSymbol_names symbol hassigned
  exact ⟨t, hnames, hnames.exec_eq hexec⟩

/-- Naming one symbol after another. -/
lemma NamesAlone.nameSymbols : ∀ (symbols : List (Nat × Symbol)) {s : Session}
    {alone : Registry × Library}, s.NamesAlone own library alone → s.Assigned →
      (∀ entry ∈ symbols, entry.2.isNamed →
        (own entry.2.path ↔ s.libraryOf? entry.2.file = some library)) →
        ((symbols.forM fun (_, symbol) => Interop.nameSymbol symbol).exec s).2.NamesAlone own library
          ((s.ownPaths library symbols).foldl Library.nameNext alone)
  | [], _, _, h, _, _ => h
  | (id, symbol) :: rest, s, alone, h, hassigned, hown => by
      obtain ⟨t, hnames, hexec⟩ := exec_nameSymbol_names symbol hassigned
      have hfirst := h.nameSymbol hassigned (hown (id, symbol) List.mem_cons_self)
      rw [hexec] at hfirst
      have hrest := hfirst.nameSymbols rest (hnames.assigned hassigned) fun entry hentry hn =>
        (hown entry (List.mem_cons_of_mem _ hentry) hn).trans (by rw [hnames.libraryOf?_eq])
      have hpaths : t.ownPaths library rest = s.ownPaths library rest := by
        simp only [ownPaths, ownPath?, hnames.libraryOf?_eq]
      have hsplit : s.ownPaths library ((id, symbol) :: rest) =
          (s.ownPath? library symbol).toList ++ s.ownPaths library rest := by
        cases hpath : s.ownPath? library symbol <;> simp [ownPaths, hpath]
      rw [hpaths] at hrest
      rw [hsplit, List.foldl_append]
      show ((Interop.nameSymbol symbol >>= fun _ =>
        rest.forM fun (_, symbol) => Interop.nameSymbol symbol).exec s).2.NamesAlone _ _ _
      rw [exec_bind, hexec]
      exact hrest

end Session

/-! ## The names of a run -/

/-- Declarations with one path are in one file. -/
def SymbolTable.OneFilePerPath (table : SymbolTable) : Prop :=
  ∀ id other s t, table.get? id = some s → table.get? other = some t →
    s.externalName = none → t.externalName = none → s.path = t.path → s.file = t.file

/-- The module is part of the path, and modules have different names. -/
lemma Catalogue.Nested.oneFilePerPath {c : Catalogue} {modules : List (Nat × String)}
    (h : c.Nested modules) : c.table.OneFilePerPath := by
  intro id other s t hs ht hsexternal htexternal hpath
  obtain ⟨module, names, hmodule, -, hsegments⟩ := h.path id s hs hsexternal
  obtain ⟨module', names', hmodule', -, hsegments'⟩ := h.path other t ht htexternal
  rw [hpath, hsegments'] at hsegments
  obtain ⟨rfl, -⟩ := List.cons.inj hsegments
  exact congrArg Prod.fst (List.inj_on_of_nodup_map h.distinct hmodule hmodule' rfl)

/-- The name that a symbol has in the output, when its library is named alone. -/
def Session.ownName (s : Session) (symbol : Symbol) : Option String :=
  match symbol.externalName with
  | some target => some target
  | none =>
    if symbol.hasLegalName then do
      let library ← s.libraryOf? symbol.file
      let lib ← s.library? library
      let alone := (Library.withCoreNames library lib.name).nameAll
        (s.ownPaths library s.table.toList)
      return (← alone.1.find? symbol.path).name
    else none

section

variable {table : SymbolTable} {options : GenerationOptions} {plans : List LibraryPlan}
  {session : Session} (hprepare : Session.prepare table options plans = .ok session)
include hprepare

/-- Preparing opens the libraries, then names one symbol after another. -/
lemma prepare_opened :
    let opened := plans.foldl Session.open (.start table options.mode options.policy)
    opened.Assigned ∧ opened.Names session ∧ (nameSymbols table).exec opened = (.ok (), session) := by
  have hassigned :=
    (Session.assigned_start table options.mode options.policy).foldl_open plans
  obtain ⟨t, hnames, hexec, -⟩ := nameSymbols_names table.toList hassigned
  have hrun : (nameSymbols table).run.run
      (plans.foldl Session.open (.start table options.mode options.policy)) = (.ok (), t) :=
    hnames.exec_eq hexec
  simp only [Session.prepare, hrun, Except.ok.injEq] at hprepare
  subst hprepare
  exact ⟨hassigned, hnames, hrun⟩

variable (hpaths : table.OneFilePerPath)
include hpaths

/-- **Preparing names the library of a plan as if it were alone**, if declarations with one path are
in one file. -/
lemma prepare_plan {library : Nat} {plan : LibraryPlan} (hplan : plans[library]? = some plan) :
    session.NamesAlone (fun path => ∃ id s, table.get? id = some s ∧ s.isNamed = true ∧
        session.libraryOf? s.file = some library ∧ s.path = path) library
      ((Library.withCoreNames library plan.name).nameAll
        (session.ownPaths library table.toList)) := by
  obtain ⟨hassigned, hnames, hexec⟩ := prepare_opened hprepare
  have hlibrary := Session.library?_opened table options.mode options.policy plans library
  have hregistry : (plans.foldl Session.open
      (.start table options.mode options.policy)).registry = {} := by
    rw [Session.kept_foldl_open]
    rfl
  generalize plans.foldl Session.open (.start table options.mode options.policy) = opened at *
  have hown : session.ownPaths library table.toList = opened.ownPaths library table.toList := by
    simp only [Session.ownPaths, Session.ownPath?, hnames.libraryOf?_eq]
  have hbegin : opened.NamesAlone (fun path => ∃ id s, table.get? id = some s ∧ s.isNamed = true ∧
      session.libraryOf? s.file = some library ∧ s.path = path) library
      ({}, .withCoreNames library plan.name) :=
    ⟨by rw [hlibrary, hplan]; rfl, fun _ _ => by rw [hregistry]⟩
  have halone := hbegin.nameSymbols table.toList hassigned fun entry hentry hnamed => ?_
  · have hrun : ((table.toList.forM fun (_, symbol) => nameSymbol symbol).exec opened).2 = session :=
      congrArg Prod.snd hexec
    rw [hown]
    rwa [hrun] at halone
  · have hid := SymbolTable.get?_of_mem_toList hentry
    rw [← hnames.libraryOf?_eq]
    constructor
    · rintro ⟨id, s, hs, hsnamed, hslibrary, hpath⟩
      have hexternal : ∀ u : Symbol, u.isNamed = true → u.externalName = none := by
        intro u hu
        simp only [Symbol.isNamed, Bool.and_eq_true, Option.isNone_iff_eq_none] at hu
        exact hu.1.2
      rw [← hpaths _ _ _ _ hs hid (hexternal s hsnamed) (hexternal _ hnamed) hpath]
      exact hslibrary
    · exact fun h => ⟨_, _, hid, hnamed, h, rfl⟩

/-- **Preparing names every library as if it were alone.** -/
lemma prepare_alone {library : Nat} {lib : Library} (hlib : session.library? library = some lib) :
    session.NamesAlone (fun path => ∃ id s, table.get? id = some s ∧ s.isNamed = true ∧
        session.libraryOf? s.file = some library ∧ s.path = path) library
      ((Library.withCoreNames library lib.name).nameAll
        (session.ownPaths library table.toList)) := by
  obtain ⟨-, hnames, -⟩ := prepare_opened hprepare
  obtain ⟨plan, hplan⟩ : ∃ plan, plans[library]? = some plan := by
    have hlt := (Array.getElem?_eq_some_iff.mp hlib).1
    have hsize : plans.length = session.libraries.size := by
      rw [hnames.size, Session.size_opened]
    exact ⟨_, List.getElem?_eq_getElem (hsize ▸ hlt)⟩
  have halone := prepare_plan hprepare hpaths hplan
  have hname : lib.name = plan.name := by
    rw [Option.some.inj (hlib.symm.trans halone.library), Library.nameAll,
      Library.name_foldl_nameNext]
    rfl
  rwa [hname]

/-- **A declaration answers with the name that it has alone**, in every session with the names of a
prepared one, if its file is one of a library. -/
lemma exec_nameOf_prepared (hready : session.Ready table plans) {later : Session}
    (hsame : session.SameNames later) {id : Nat} {symbol : Symbol}
    (hid : table.get? id = some symbol) (hkind : symbol.kind.isEmitted = true)
    (hassigned : symbol.externalName = none → (session.libraryOf? symbol.file).isSome) :
    ((nameOf id).exec later).1 = .ok (session.ownName symbol) := by
  have htable : later.table.get? id = some symbol := by
    rw [hsame.table, hready.table_eq]
    exact hid
  cases hexternal : symbol.externalName with
  | some target => simp [exec_nameOf_external htable hexternal, Session.ownName, hexternal]
  | none =>
      obtain ⟨library, hlibrary⟩ := Option.isSome_iff_exists.mp (hassigned hexternal)
      have hlibrary' : later.libraryOf? symbol.file = some library := by
        rw [Session.libraryOf?, hsame.assignments]
        exact hlibrary
      cases hlegal : symbol.hasLegalName with
      | false =>
          simp [exec_nameOf_illegal htable hexternal hlibrary' hlegal, Session.ownName, hexternal,
            hlegal]
      | true =>
          have hnamed : symbol.isNamed = true := by
            simp [Symbol.isNamed, hkind, hexternal, hlegal]
          obtain ⟨lib, hlib⟩ := hready.library _ _ hlibrary
          obtain ⟨record, hrecord⟩ := hready.named id symbol library hid hnamed hlibrary
          have hown := (prepare_alone hprepare hpaths hlib).record symbol.path
            ⟨id, symbol, hid, hnamed, hlibrary, rfl⟩
          have hlib' : later.library? library = some lib := by
            rw [Session.library?, hsame.libraries]
            exact hlib
          have hrecord' : later.registry.find? symbol.path = some record := by
            rw [hsame.registry]
            exact hrecord
          rw [exec_nameOf htable hexternal hlibrary' hlegal hlib' hrecord']
          simp [Session.ownName, hexternal, hlegal, hlibrary, hlib, hready.table_eq, ← hown,
            hrecord]

end

/-- **Names are given once, before anything is written.**  Preparing a run names its declarations,
and each library gets the names that it gets when it is the only one, from its own declarations in
the order of their registration.  Whatever happens later, the run itself included, no name is added
to the registry or to a library, and every declaration answers with the name that it has. -/
theorem prepare_names (files : List SourceFile) (programs : List Program)
    (options : GenerationOptions) :
    let plan := planRun options.merge files programs
    ∃ session, Session.prepare plan.table options plan.libraries = .ok session ∧
      (∀ library lib, session.library? library = some lib →
        lib = ((Library.withCoreNames library lib.name).nameAll
          (session.ownPaths library plan.table.toList)).2) ∧
      session.Later ((writeLibraries 0 plan.libraries).run session).2 ∧
      ∀ later, session.Later later →
        later.registry = session.registry ∧ later.libraries = session.libraries ∧
        ∀ id s, plan.table.get? id = some s → s.kind.isEmitted = true →
          ((nameOf id).exec later).1 = .ok (session.ownName s) := by
  dsimp only
  obtain ⟨session, hprepare, hready⟩ := prepare_session (planRun options.merge files programs).table
    options (planRun options.merge files programs).libraries
  have hnested : Catalogue.Nested _ (defineFiles _ (placeFiles files programs)).1 :=
    collect_nested (placeFiles files programs) placeFiles_isTop placeFiles_modules_nodup
  refine ⟨session, hprepare, ?_, Session.Later.writeLibraries _ 0 .refl, ?_⟩
  · intro library lib hlib
    have halone := prepare_alone hprepare hnested.oneFilePerPath hlib
    exact Option.some.inj (hlib.symm.trans halone.library)
  · intro later hlater
    have hsame := Session.SameNames.later hlater hready.settled_any
    refine ⟨hsame.registry, hsame.libraries, fun id symbol hid hkind => ?_⟩
    refine exec_nameOf_prepared hprepare hnested.oneFilePerPath hready hsame hid hkind ?_
    intro hexternal
    obtain ⟨plan, hplan, f, hf, hfile⟩ := planRun_file options.merge files programs hid hexternal
    rw [← hfile]
    exact hready.assigned plan hplan f hf

end Interop
