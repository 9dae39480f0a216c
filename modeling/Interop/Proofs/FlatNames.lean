import Interop.Proofs.Items
import Interop.Proofs.Naming
import Mathlib

/-!
# Which declarations share a name

A flat name is given to a path, so two declarations of a library have one name exactly where they
have one path.  A path tells declarations apart up to their role: what has the path of another
declaration and is not the same symbol, is of a kind that does not merge with the kind of the other.
The grammar rules that out within one block, and not across the blocks of a namespace.

* `SymbolKind.clashes` — the kinds that share paths and no symbol.
* **`declareFiles_apart`** — symbols with one path are of such kinds.
* `Library.name_nameAll_ne` — a library gives different paths different names.
* **`prepare_flatName_eq_iff`** — the declarations of a run have one name where they have one path.
-/

namespace Interop

open Source Work

/-! ## Paths -/

/-- Whether declarations of two kinds have one path where they have one name, and still no symbol in
common. -/
def SymbolKind.clashes : SymbolKind → SymbolKind → Bool
  | .enum, .klass | .enum, .interface | .klass, .enum | .interface, .enum => true
  | .function, .variable | .variable, .function => true
  | _, _ => false

lemma SymbolKind.clashes_of_role {kind other : SymbolKind} (hkind : kind.isEmitted = true)
    (hother : other.isEmitted = true) (hrole : kind.role = other.role)
    (hshared : kind.shared ≠ other.shared) : kind.clashes other = true := by
  cases kind <;> cases other <;> simp_all [isEmitted, role, shared, clashes]

namespace Catalogue

variable {keys : List DeclKey} {files : List Nat} {c : Catalogue}

/-- **A path tells declarations apart**, up to those of one role that do not merge. -/
structure Apart (c : Catalogue) : Prop where
  role : ∀ id s, c.table.get? id = some s → s.externalName = none → s.path.role = s.kind.role
  symbol : ∀ id other s t, c.table.get? id = some s → c.table.get? other = some t →
    s.externalName = none → t.externalName = none → s.path = t.path →
      s.kind.shared = t.kind.shared → id = other

/-- A declaration gets a new symbol only where no symbol is there that it could belong to. -/
lemma Registered.shared_ne_of_new (h : c.Registered keys files) {place : Place} {name : String}
    {kind : SymbolKind} {span : Span} (hnew : (c.declare place name kind span).2 = c.table.size)
    {id : Nat} {s : Symbol} (hs : c.table.get? id = some s) (hexternal : s.externalName = none)
    (hpath : s.path = place.path name kind) : s.kind.shared ≠ kind.shared := by
  intro hshared
  have hself := h.found id s hs hexternal
  rw [hpath] at hself
  -- any symbol that the declaration could belong to has a smaller number
  have hold : ∀ {k i}, c.find? (place.path name kind) k = some i → i ≠ c.table.size := by
    intro k i hi he
    obtain ⟨t, ht, -⟩ := h.symbol _ _ _ hi
    exact Nat.ne_of_lt (SymbolTable.lt_size_of_get? ht) he
  cases hfound : c.find? (place.path name kind) kind with
  | some i =>
      simp only [Catalogue.declare, hfound] at hnew
      exact hold hfound hnew
  | none =>
      cases hjoin : (partner? kind).bind (c.find? (place.path name kind)) with
      | some i =>
          simp only [Catalogue.declare, hfound, hjoin] at hnew
          obtain ⟨other, -, hi⟩ := Option.bind_eq_some_iff.mp hjoin
          exact hold hi hnew
      | none =>
          have hother : s.kind ≠ kind := by
            rintro rfl
            rw [hfound] at hself
            cases hself
          have hpartner : partner? kind ≠ some s.kind := by
            intro hp
            rw [hp, Option.bind_some, hself] at hjoin
            cases hjoin
          cases hkind : s.kind <;> cases kind <;>
            simp_all [SymbolKind.shared, partner?]

lemma apart_platform : Apart {} := by
  constructor
  · intro id s hs hexternal
    obtain ⟨name, target, rfl⟩ := SymbolTable.platform_external hs
    cases hexternal
  · intro id other s t hs _ hexternal
    obtain ⟨name, target, rfl⟩ := SymbolTable.platform_external hs
    cases hexternal

/-- **Declaring keeps paths apart.**  A symbol that is joined keeps what its kind shares, and one that
is new finds no other that it could belong to. -/
lemma Apart.declare (hc : c.Apart) (h : c.Registered keys files) (place : Place) (name : String)
    (kind : SymbolKind) (span : Span) : (c.declare place name kind span).1.Apart := by
  rcases c.declare_cases h place name kind span with
    ⟨joined, hjoined, -, -, hshared, htable | ⟨hklass, htable⟩⟩ | ⟨hnew, htable⟩
  · exact ⟨htable ▸ hc.role, htable ▸ hc.symbol⟩
  · -- what is there is what was there, up to a kind that merges with the old one
    have hold : ∀ id s, (c.declare place name kind span).1.table.get? id = some s →
        ∃ t, c.table.get? id = some t ∧ s.externalName = t.externalName ∧ s.path = t.path ∧
          s.kind.role = t.kind.role ∧ s.kind.shared = t.kind.shared := by
      intro id s hs
      rw [htable, SymbolTable.get?_modify] at hs
      split_ifs at hs with hid
      · obtain ⟨t, ht, rfl⟩ := Option.map_eq_some_iff.mp hs
        rw [← hid, hjoined] at ht
        obtain rfl := Option.some.inj ht
        refine ⟨joined, hid ▸ hjoined, rfl, rfl, ?_, ?_⟩ <;>
          cases hkind : joined.kind <;> simp_all [SymbolKind.shared, SymbolKind.role]
      · exact ⟨s, hs, rfl, rfl, rfl, rfl⟩
    constructor
    · intro id s hs hexternal
      obtain ⟨t, ht, hext, hpath, hrole, -⟩ := hold id s hs
      rw [hpath, hrole]
      exact hc.role id t ht (hext ▸ hexternal)
    · intro id other s t hs ht hsexternal htexternal hpath hkinds
      obtain ⟨s', hs', hsext, hspath, -, hsshared⟩ := hold id s hs
      obtain ⟨t', ht', htext, htpath, -, htshared⟩ := hold other t ht
      exact hc.symbol id other s' t' hs' ht' (hsext ▸ hsexternal) (htext ▸ htexternal)
        (hspath.symm.trans (hpath.trans htpath)) (hsshared.symm.trans (hkinds.trans htshared))
  · have hnone : ∀ id s, c.table.get? id = some s → s.externalName = none →
        s.path = place.path name kind → s.kind.shared ≠ kind.shared := fun _ _ =>
      h.shared_ne_of_new hnew
    constructor
    · intro id s hs hexternal
      rw [htable, SymbolTable.get?_push] at hs
      split_ifs at hs with hid
      · obtain rfl := Option.some.inj hs
        rfl
      · exact hc.role id s hs hexternal
    · intro id other s t hs ht hsexternal htexternal hpath hkinds
      rw [htable, SymbolTable.get?_push] at hs ht
      split_ifs at hs ht with hid hother hother
      · rw [hid, hother]
      · obtain rfl := Option.some.inj hs
        exact absurd hkinds.symm (hnone other t ht htexternal hpath.symm)
      · obtain rfl := Option.some.inj ht
        exact absurd hkinds (hnone id s hs hsexternal hpath)
      · exact hc.symbol id other s t hs ht hsexternal htexternal hpath hkinds

end Catalogue

/-- **The first pass keeps paths apart**, in whatever order and blocks names are declared. -/
theorem declareFiles_apart (files : List ReadFile) : (declareFiles files).Apart :=
  (declareFiles_keeps
    (P := fun keys c => c.Registered keys (files.map (·.place.file)) ∧ c.Apart)
    (fun _ hf _ _ _ _ kind span hfile _ hc =>
      ⟨hc.1.declare kind span (hfile ▸ List.mem_map_of_mem hf), hc.2.declare hc.1 _ _ kind span⟩)
    ⟨Catalogue.registered_platform, Catalogue.apart_platform⟩).2

/-- The symbols of a run whose paths are one are of kinds that do not merge. -/
lemma collect_clashes (files : List ReadFile) {id other : Nat} {s t : Symbol}
    (hs : (collect files).1.get? id = some s) (ht : (collect files).1.get? other = some t)
    (hne : id ≠ other) (hsexternal : s.externalName = none) (htexternal : t.externalName = none)
    (hskind : s.kind.isEmitted = true) (htkind : t.kind.isEmitted = true)
    (hpath : s.path = t.path) : s.kind.clashes t.kind = true := by
  obtain ⟨s', hs', hskind', hspath, -, hsexternal'⟩ := collect_declared hs
  obtain ⟨t', ht', htkind', htpath, -, htexternal'⟩ := collect_declared ht
  have happart := declareFiles_apart files
  have hsrole := happart.role id s' hs' (hsexternal' ▸ hsexternal)
  have htrole := happart.role other t' ht' (htexternal' ▸ htexternal)
  refine SymbolKind.clashes_of_role hskind htkind ?_ fun hshared => hne ?_
  · rw [hskind', htkind', ← hsrole, ← htrole, ← hspath, ← htpath, hpath]
  · exact happart.symbol id other s' t' hs' ht' (hsexternal' ▸ hsexternal)
      (htexternal' ▸ htexternal) (hspath.symm.trans (hpath.trans htpath))
      (hskind' ▸ htkind' ▸ hshared)

/-! ## Names -/

/-- A library alone is one of a run with a single library. -/
lemma Library.nameAll_eq_run (library : Library) (paths : List DeclPath) :
    library.nameAll paths =
      (((Naming.start fun _ : Unit => library).run (paths.map (·, ()))).registry,
        ((Naming.start fun _ : Unit => library).run (paths.map (·, ()))).libraries ()) := by
  have hrun : ∀ (paths : List DeclPath) (s : Naming Unit),
      paths.foldl nameNext (s.registry, s.libraries ()) =
        ((s.run (paths.map (·, ()))).registry, (s.run (paths.map (·, ()))).libraries ()) := by
    intro paths
    induction paths with
    | nil => intro s; rfl
    | cons path rest ih =>
        intro s
        have hnext : nameNext (s.registry, s.libraries ()) path =
            ((s.allocate path ()).2.registry, (s.allocate path ()).2.libraries ()) := by
          simp [nameNext, Naming.allocate]
        rw [List.foldl_cons, hnext]
        exact ih (s.allocate path ()).2
  exact hrun paths (.start fun _ => library)

/-- **A library gives different paths different names.** -/
lemma Library.name_nameAll_ne {library : Library} {paths : List DeclPath} {p q : DeclPath}
    {r t : NameRecord} (hp : (library.nameAll paths).1.find? p = some r)
    (hq : (library.nameAll paths).1.find? q = some t) (hne : p ≠ q) : r.name ≠ t.name := by
  have hconsistent := (Naming.consistent_start fun _ : Unit => library).run
    (fun _ _ _ => rfl) (paths.map (·, ()))
  rw [nameAll_eq_run] at hp hq
  obtain ⟨-, hr, -⟩ := hconsistent.record_used p r hp
  obtain ⟨-, ht, -⟩ := hconsistent.record_used q t hq
  exact hconsistent.record_ne p q r t hp hq hne (hr.trans ht.symm)

/-- What it takes to have a flat name. -/
lemma Symbol.isNamed_iff {s : Symbol} :
    s.isNamed = true ↔
      s.kind.isEmitted = true ∧ s.externalName = none ∧ s.hasLegalName = true := by
  simp [isNamed, and_assoc]

section

variable {table : SymbolTable} {options : GenerationOptions} {plans : List LibraryPlan}
  {session : Session} (hready : session.Ready table plans) {id other library : Nat} {s t : Symbol}
  (hs : table.get? id = some s) (hsnamed : s.isNamed = true)
  (hslibrary : session.libraryOf? s.file = some library)
include hready hs hsnamed hslibrary

/-- A declaration has the name of its record. -/
lemma Session.Ready.flatName_record :
    ∃ record, session.registry.find? s.path = some record ∧
      session.flatName s = some record.name := by
  obtain ⟨record, hrecord⟩ := hready.named id s library hs hsnamed hslibrary
  obtain ⟨-, hexternal, hlegal⟩ := Symbol.isNamed_iff.mp hsnamed
  exact ⟨record, hrecord, by simp [flatName, hexternal, hlegal, hrecord]⟩

/-- A declaration answers with its name whatever has happened, and the answer notes no more than
that its library is referred to. -/
lemma Session.Ready.exec_nameOf {later : Session} (hlater : session.Later later) :
    (nameOf id).exec later = (.ok (session.flatName s), later.refer library) := by
  have hsame := Session.SameNames.later hlater hready.settled_any
  obtain ⟨-, hexternal, hlegal⟩ := Symbol.isNamed_iff.mp hsnamed
  obtain ⟨lib, hlib⟩ := hready.library _ _ hslibrary
  obtain ⟨record, hrecord, hname⟩ := hready.flatName_record hs hsnamed hslibrary
  have hid : later.table.get? id = some s := by
    rw [hsame.table, hready.table_eq]
    exact hs
  have hfile : later.libraryOf? s.file = some library := by
    rw [libraryOf?, hsame.assignments]
    exact hslibrary
  have hlib' : later.library? library = some lib := by
    rw [library?, hsame.libraries]
    exact hlib
  have hrecord' : later.registry.find? s.path = some record := by
    rw [hsame.registry]
    exact hrecord
  rw [Work.exec_nameOf hid hexternal hfile hlegal hlib' hrecord', hname]

/-- **Names of a library are those of paths.** -/
lemma Session.Ready.flatName_eq_iff
    (hprepare : Session.prepare table options plans = .ok session) (hpaths : table.OneFilePerPath)
    (ht : table.get? other = some t) (htnamed : t.isNamed = true)
    (htlibrary : session.libraryOf? t.file = some library) :
    session.flatName s = session.flatName t ↔ s.path = t.path := by
  obtain ⟨r, hr, hsname⟩ := hready.flatName_record hs hsnamed hslibrary
  obtain ⟨u, hu, htname⟩ := hready.flatName_record ht htnamed htlibrary
  obtain ⟨lib, hlib⟩ := hready.library _ _ hslibrary
  have halone := prepare_alone hprepare hpaths hlib
  rw [hsname, htname, Option.some.injEq]
  constructor
  · intro hname
    by_contra hne
    have hr' := halone.record s.path ⟨id, s, hs, hsnamed, hslibrary, rfl⟩
    have hu' := halone.record t.path ⟨other, t, ht, htnamed, htlibrary, rfl⟩
    exact Library.name_nameAll_ne (hr'.symm.trans hr) (hu'.symm.trans hu) hne hname
  · intro hpath
    rw [hpath, hu] at hr
    rw [Option.some.inj hr]

end

/-- The symbols of a run with one path are in one file. -/
lemma planRun_oneFilePerPath (merge : Option String) (files : List SourceFile)
    (programs : List Program) : (planRun merge files programs).table.OneFilePerPath :=
  (collect_nested (placeFiles files programs) placeFiles_isTop
    placeFiles_modules_nodup).oneFilePerPath

/-- The symbols of a run that have names are in libraries. -/
lemma planRun_libraryOf? {merge : Option String} {files : List SourceFile}
    {programs : List Program} {session : Session}
    (hready : session.Ready (planRun merge files programs).table
      (planRun merge files programs).libraries)
    {id : Nat} {s : Symbol} (hs : (planRun merge files programs).table.get? id = some s)
    (hnamed : s.isNamed = true) : ∃ library, session.libraryOf? s.file = some library := by
  obtain ⟨plan, hplan, f, hf, hfile⟩ :=
    planRun_file merge files programs hs (Symbol.isNamed_iff.mp hnamed).2.1
  exact Option.isSome_iff_exists.mp (hfile ▸ hready.assigned plan hplan f hf)

/-- **Declarations of a library have one name exactly where they have one path.**  In a prepared run
every declaration that has a legal name is named, and keeps its name whatever happens later.  Two
symbols of one library have different names, unless they are declared under one path in one file,
one as a class or interface and the other as an enum, or one as a function and the other as a
variable. -/
theorem prepare_flatName_eq_iff (files : List SourceFile) (programs : List Program)
    (options : GenerationOptions) :
    let plan := planRun options.merge files programs
    ∃ session, Session.prepare plan.table options plan.libraries = .ok session ∧
      (∀ id s, plan.table.get? id = some s → s.isNamed = true →
        ∃ name, session.flatName s = some name ∧
          ∀ later, session.Later later → ((nameOf id).exec later).1 = .ok (some name)) ∧
      ∀ id other s t, plan.table.get? id = some s → plan.table.get? other = some t → id ≠ other →
        s.isNamed = true → t.isNamed = true →
          session.libraryOf? s.file = session.libraryOf? t.file →
            (session.flatName s = session.flatName t ↔ s.path = t.path) ∧
            (s.path = t.path → s.file = t.file ∧ s.kind.clashes t.kind = true) := by
  intro plan
  obtain ⟨session, hprepare, hready⟩ := prepare_session plan.table options plan.libraries
  refine ⟨session, hprepare, ?_, ?_⟩
  · intro id s hs hnamed
    obtain ⟨library, hlibrary⟩ := planRun_libraryOf? hready hs hnamed
    obtain ⟨record, -, hname⟩ := hready.flatName_record hs hnamed hlibrary
    refine ⟨record.name, hname, fun later hlater => ?_⟩
    rw [hready.exec_nameOf hs hnamed hlibrary hlater, hname]
  · intro id other s t hs ht hne hsnamed htnamed hlibraries
    obtain ⟨library, hslibrary⟩ := planRun_libraryOf? hready hs hsnamed
    obtain ⟨hskind, hsexternal, -⟩ := Symbol.isNamed_iff.mp hsnamed
    obtain ⟨htkind, htexternal, -⟩ := Symbol.isNamed_iff.mp htnamed
    have hpaths := planRun_oneFilePerPath options.merge files programs
    refine ⟨?_, fun hpath => ⟨?_, ?_⟩⟩
    · exact hready.flatName_eq_iff hs hsnamed hslibrary hprepare hpaths ht htnamed
        (hlibraries ▸ hslibrary)
    · exact hpaths id other s t hs ht hsexternal htexternal hpath
    · exact collect_clashes (placeFiles files programs) hs ht hne hsexternal htexternal hskind
        htkind hpath

set_option maxRecDepth 2000 in
/-- Two blocks of one namespace: the interface and the enum in them are two symbols of one name. -/
theorem prepare_flatName_two_blocks :
    let file : SourceFile := ⟨"a", "namespace n { interface A {} } namespace n { enum A {} }"⟩
    ∃ program, file.read = .ok program ∧
      let plan := planRun none [file] [program]
      ∃ session, Session.prepare plan.table {} plan.libraries = .ok session ∧
        ∃ s t, plan.table.get? 19 = some s ∧ plan.table.get? 20 = some t ∧
          s.isNamed = true ∧ t.isNamed = true ∧
          session.libraryOf? s.file = some 0 ∧ session.libraryOf? t.file = some 0 ∧
          session.flatName s = some "A" ∧ session.flatName t = some "A" := by
  intro file
  let program : Program :=
    ⟨[.declaration false (.nameSpace ⟨0, 30⟩ (.identifier "n")
        [.declaration false (.interface ⟨⟨14, 28⟩, "A", [], [], []⟩)]),
      .declaration false (.nameSpace ⟨31, 56⟩ (.identifier "n")
        [.declaration false (.enum ⟨⟨45, 54⟩, "A", false, []⟩)])]⟩
  have hread : file.read = .ok program :=
    SourceFile.read_of_parse (by cbv) (by cbv) (by decide +kernel)
  have hstem : moduleStem file.path = "a" := by
    have hfile : fileName file.path = "a" := by cbv
    rw [moduleStem, hfile]
    decide
  let placed : List ReadFile := [⟨"a", { file := 0, module := "a", source := file.text }, program⟩]
  have hplan : planRun none [file] [program] = planPlaced none placed := by
    rw [planRun_eq, placeFiles_singleton file program hstem]
  refine ⟨program, hread, ?_⟩
  rw [hplan]
  obtain ⟨session, hprepare, -⟩ := prepare_session (planPlaced none placed).table {}
    (planPlaced none placed).libraries
  have hrun : (Session.prepare (planPlaced none placed).table {}
      (planPlaced none placed).libraries).toOption.map
        (fun session => [19, 20].map fun id => ((planPlaced none placed).table.get? id).map fun s =>
          (s.isNamed, session.libraryOf? s.file, session.flatName s)) =
      some [some (true, some 0, some "A"), some (true, some 0, some "A")] := by
    decide +kernel
  rw [hprepare] at hrun
  simp only [Except.toOption, Option.map_some, Option.some.injEq, List.map_cons, List.map_nil,
    List.cons.injEq, Option.map_eq_some_iff, Prod.mk.injEq, and_true] at hrun
  obtain ⟨⟨s, hs, hsnamed, hslibrary, hsname⟩, t, ht, htnamed, htlibrary, htname⟩ := hrun
  exact ⟨session, hprepare, s, t, hs, ht, hsnamed, htnamed, hslibrary, htlibrary, hsname, htname⟩

end Interop
