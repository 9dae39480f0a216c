import Interop.Proofs.FlatNames

/-!
# How declarations are referred to

A reference is written under the flat name that its declaration has in its own library, in whatever
library it stands, and notes that the library is needed.  That name is one of the spellings of the
declaration's path.  Names are unique in one library alone: declarations of two libraries can have
one name, where one spelling fits both of their paths, and a third library then refers to both of
them by it.

* `Library.Spells` — the names that a path can get.
* `exec_renderNominal` — a reference is a name and its arguments.
* **`prepare_references`** — what the references of a run say.
-/

namespace Interop

open Source Work

/-! ## Spellings -/

namespace Library

/-- The names that a path can get: its suffixes, and its numbered leaf. -/
def Spells (path : DeclPath) (name : String) : Prop :=
  name ∈ candidates path ∨ name = fallback path ∨ ∃ k, 2 ≤ k ∧ name = fallback path ++ toString k

/-- A path gets one of its spellings, whatever is in use. -/
lemma firstFree_spells (library : Library) (path : DeclPath) :
    Spells path (library.firstFree path) := by
  unfold firstFree
  split
  · rename_i name hname
    exact Or.inl (List.mem_of_find?_eq_some hname)
  · dsimp only
    split_ifs
    · obtain ⟨k, hle, -, -, hk⟩ := numbered_free library (fallback path)
      exact Or.inr (Or.inr ⟨k, hle, hk⟩)
    · exact Or.inr (Or.inl rfl)

/-- The names that a library gives are spellings of their paths. -/
lemma nameAll_spells {library : Library} {paths : List DeclPath} {path : DeclPath}
    {record : NameRecord} (h : (library.nameAll paths).1.find? path = some record) :
    Spells path record.name := by
  have hfold : ∀ (paths : List DeclPath) (alone : Registry × Library),
      (∀ p r, alone.1.find? p = some r → Spells p r.name) →
        ∀ p r, (paths.foldl nameNext alone).1.find? p = some r → Spells p r.name := by
    intro paths
    induction paths with
    | nil => exact fun _ h => h
    | cons q rest ih =>
        refine fun alone hall => ih (nameNext alone q) fun p r hp => ?_
        unfold nameNext at hp
        cases hq : alone.1.find? q with
        | some record =>
            rw [Registry.allocate_of_find? hq] at hp
            exact hall p r hp
        | none =>
            rw [Registry.allocate_of_new hq, Registry.find?_append _ _ _ _ hq] at hp
            split_ifs at hp with hpq
            · rw [← Option.some.inj hp, hpq]
              exact firstFree_spells alone.2 q
            · exact hall p r hp
  exact hfold paths ({}, library) (fun p r hp => by cases hp) path record h

end Library

/-! ## Rendered references -/

/-- **A reference is a name and its arguments.** -/
lemma exec_renderNominal {render : Renderer} {id : Nat} {symbol : Symbol} {args : List Ty}
    {o : RenderOptions} {s t : Session} {name : String} {r : Rendered}
    (hname : (nameOf id).exec s = (.ok (some name), t))
    (h : ((renderNominal render id symbol args o).exec s).1 = .ok r) :
    ∃ texts, r = .plain (name ++ inAngles texts) := by
  unfold renderNominal at h
  rw [exec_bind, hname] at h
  simp only [next] at h
  split_ifs at h
  · obtain rfl := Except.ok.inj h
    exact ⟨[], by simp [inAngles]⟩
  · rw [exec_bind] at h
    rcases hargs : (args.mapM fun arg => do
      return (← render arg o.argument).withComment : Work (List String)).exec t with
      ⟨failure | texts, u⟩
    · rw [hargs] at h
      cases h
    · rw [hargs] at h
      exact ⟨texts, (Except.ok.inj h).symm⟩

/-- A reference to a class, interface or enum is rendered as one. -/
lemma render_nominal {s : Session} {id : Nat} {symbol : Symbol} (hid : s.table.get? id = some symbol)
    (hkind : symbol.kind.isEmitted = true) (htype : symbol.kind.isType = true) (args : List Ty)
    (o : RenderOptions) :
    (render (.nominal id args) o).exec s =
      (renderNominal (renderWithin (depthLimit - 1)) id symbol args o).exec s := by
  show (renderSymbol (renderWithin (depthLimit - 1)) id args o).exec s = _
  unfold renderSymbol
  rw [exec_table_bind, hid]
  cases hk : symbol.kind <;> simp_all [SymbolKind.isEmitted, SymbolKind.isType]

/-- The name of a declaration of a run is a spelling of its path. -/
lemma planRun_spells {files : List SourceFile} {programs : List Program}
    {options : GenerationOptions} {session : Session}
    (hprepare : Session.prepare (planRun options.merge files programs).table options
      (planRun options.merge files programs).libraries = .ok session)
    (hready : session.Ready (planRun options.merge files programs).table
      (planRun options.merge files programs).libraries) {id : Nat} {s : Symbol}
    (hs : (planRun options.merge files programs).table.get? id = some s)
    (hnamed : s.isNamed = true) :
    ∃ name, session.flatName s = some name ∧ Library.Spells s.path name := by
  obtain ⟨library, hlibrary⟩ := planRun_libraryOf? hready hs hnamed
  obtain ⟨record, hrecord, hname⟩ := hready.flatName_record hs hnamed hlibrary
  obtain ⟨lib, hlib⟩ := hready.library _ _ hlibrary
  have halone := (prepare_alone hprepare (planRun_oneFilePerPath options.merge files programs)
    hlib).record s.path ⟨id, s, hs, hnamed, hlibrary, rfl⟩
  exact ⟨record.name, hname, Library.nameAll_spells (halone.symm.trans hrecord)⟩

/-- **References of a run.**  Every declaration with a legal name has one flat name: a spelling of its
path, under which it is declared and referred to in all libraries, whatever has happened before.
Declarations that have one name have different libraries or one path, and one spelling fits both
their paths. -/
theorem prepare_references (files : List SourceFile) (programs : List Program)
    (options : GenerationOptions) :
    let plan := planRun options.merge files programs
    ∃ session, Session.prepare plan.table options plan.libraries = .ok session ∧
      (∀ id s, plan.table.get? id = some s → s.isNamed = true →
        ∃ library name, session.libraryOf? s.file = some library ∧
          session.flatName s = some name ∧ Library.Spells s.path name ∧
          ∀ later, session.Later later →
            (nameOf id).exec later = (.ok (some name), later.refer library) ∧
            (s.kind.isType = true → ∀ args o r, ((render (.nominal id args) o).exec later).1 = .ok r →
              ∃ texts, r = .plain (name ++ inAngles texts))) ∧
      ∀ id other s t, plan.table.get? id = some s → plan.table.get? other = some t →
        s.isNamed = true → t.isNamed = true → session.flatName s = session.flatName t →
          (session.libraryOf? s.file = session.libraryOf? t.file → s.path = t.path) ∧
          ∃ name, Library.Spells s.path name ∧ Library.Spells t.path name := by
  intro plan
  obtain ⟨session, hprepare, hready⟩ := prepare_session plan.table options plan.libraries
  have hpaths := planRun_oneFilePerPath options.merge files programs
  have hnames : ∀ {id s library}, plan.table.get? id = some s → s.isNamed = true →
      session.libraryOf? s.file = some library →
        ∃ name, session.flatName s = some name ∧ Library.Spells s.path name := by
    intro id s library hs hnamed hlibrary
    obtain ⟨record, hrecord, hname⟩ := hready.flatName_record hs hnamed hlibrary
    obtain ⟨lib, hlib⟩ := hready.library _ _ hlibrary
    have halone := (prepare_alone hprepare hpaths hlib).record s.path
      ⟨id, s, hs, hnamed, hlibrary, rfl⟩
    exact ⟨record.name, hname, Library.nameAll_spells (halone.symm.trans hrecord)⟩
  refine ⟨session, hprepare, ?_, ?_⟩
  · intro id s hs hnamed
    obtain ⟨library, hlibrary⟩ := planRun_libraryOf? hready hs hnamed
    obtain ⟨name, hname, hspells⟩ := hnames hs hnamed hlibrary
    refine ⟨library, name, hlibrary, hname, hspells, fun later hlater => ?_⟩
    have hanswer := hready.exec_nameOf hs hnamed hlibrary hlater
    rw [hname] at hanswer
    refine ⟨hanswer, fun htype args o r hr => ?_⟩
    have hid : later.table.get? id = some s := by
      rw [(Session.SameNames.later hlater hready.settled_any).table, hready.table_eq]
      exact hs
    rw [render_nominal hid (Symbol.isNamed_iff.mp hnamed).1 htype] at hr
    exact exec_renderNominal hanswer hr
  · intro id other s t hs ht hsnamed htnamed hsame
    obtain ⟨library, hslibrary⟩ := planRun_libraryOf? hready hs hsnamed
    obtain ⟨library', htlibrary⟩ := planRun_libraryOf? hready ht htnamed
    obtain ⟨name, hsname, hsspells⟩ := hnames hs hsnamed hslibrary
    obtain ⟨name', htname, htspells⟩ := hnames ht htnamed htlibrary
    have hequal : name = name' := Option.some.inj (hsname.symm.trans (hsame.trans htname))
    refine ⟨fun hlibraries => ?_, name, hsspells, hequal ▸ htspells⟩
    exact (hready.flatName_eq_iff hs hsnamed hslibrary hprepare hpaths ht htnamed
      (hlibraries ▸ hslibrary)).mp hsame

set_option maxRecDepth 2000 in
/-- Two libraries that each have an `A`, and a third one that refers to both. -/
theorem prepare_references_third_library :
    let files : List SourceFile := [⟨"a", "interface A {}"⟩, ⟨"b", "namespace n { interface A {} }"⟩,
      ⟨"c", "var x: A; var y: n.A;"⟩]
    let text := "@JS()\nlibrary c;\n\nimport 'package:js/js.dart';\nimport 'a.dart';\n" ++
      "import 'b.dart';\n\n@JS()\nexternal A get x;\n\n@JS()\nexternal set x(A value);\n\n" ++
      "@JS()\nexternal A get y;\n\n@JS()\nexternal set y(A value);\n"
    ∃ programs session, files.mapM SourceFile.read = .ok programs ∧
      Session.prepare (planRun none files programs).table {}
        (planRun none files programs).libraries = .ok session ∧
      (∃ s t, (planRun none files programs).table.get? 18 = some s ∧
        (planRun none files programs).table.get? 20 = some t ∧ s.isNamed = true ∧
        t.isNamed = true ∧ session.libraryOf? s.file = some 0 ∧
        session.libraryOf? t.file = some 1 ∧ session.flatName s = some "A" ∧
        session.flatName t = some "A") ∧
      ((writeLibraries 0 (planRun none files programs).libraries).run session).1[2]?.map
        OutputLibrary.text = some text := by
  intro files text
  let first : Program := ⟨[.declaration false (.interface ⟨⟨0, 14⟩, "A", [], [], []⟩)]⟩
  let second : Program := ⟨[.declaration false (.nameSpace ⟨0, 30⟩ (.identifier "n")
    [.declaration false (.interface ⟨⟨14, 28⟩, "A", [], [], []⟩)])]⟩
  let third : Program := ⟨[
    .declaration false (.variables .var
      [⟨⟨4, 8⟩, .name "x", some ⟨⟨7, 8⟩, .reference ["A"] []⟩, none⟩]),
    .declaration false (.variables .var
      [⟨⟨14, 20⟩, .name "y", some ⟨⟨17, 20⟩, .reference ["n", "A"] []⟩, none⟩])]⟩
  have hread : files.mapM SourceFile.read = .ok [first, second, third] := by
    have hfirst : SourceFile.read ⟨"a", "interface A {}"⟩ = .ok first :=
      SourceFile.read_of_parse (by cbv) (by cbv) (by decide +kernel)
    have hsecond : SourceFile.read ⟨"b", "namespace n { interface A {} }"⟩ = .ok second :=
      SourceFile.read_of_parse (by cbv) (by cbv) (by decide +kernel)
    have hthird : SourceFile.read ⟨"c", "var x: A; var y: n.A;"⟩ = .ok third :=
      SourceFile.read_of_parse (by cbv) (by cbv) (by decide +kernel)
    simp only [files, List.mapM_cons, List.mapM_nil, hfirst, hsecond, hthird]
    rfl
  have hnames : moduleNames ["a", "b", "c"] = ["a", "b", "c"] := by
    have hfiles : fileName "a" = "a" ∧ fileName "b" = "b" ∧ fileName "c" = "c" :=
      ⟨by cbv, by cbv, by cbv⟩
    refine moduleNames_of_stems ?_ (by simp)
    simp only [List.map_cons, List.map_nil, moduleStem, hfiles]
    decide
  let placed : List ReadFile := [
    ⟨"a", { file := 0, module := "a", source := "interface A {}" }, first⟩,
    ⟨"b", { file := 1, module := "b", source := "namespace n { interface A {} }" }, second⟩,
    ⟨"c", { file := 2, module := "c", source := "var x: A; var y: n.A;" }, third⟩]
  have hplan : planRun none files [first, second, third] = planPlaced none placed := by
    have hpaths : files.map (·.path) = ["a", "b", "c"] := rfl
    rw [planRun_eq, placeFiles, hpaths, hnames]
    rfl
  obtain ⟨session, hprepare, -⟩ := prepare_session (planPlaced none placed).table {}
    (planPlaced none placed).libraries
  have hnamed : (Session.prepare (planPlaced none placed).table {}
      (planPlaced none placed).libraries).toOption.map (fun session =>
        [18, 20].map fun id => ((planPlaced none placed).table.get? id).map fun s =>
          (s.isNamed, session.libraryOf? s.file, session.flatName s)) =
      some [some (true, some 0, some "A"), some (true, some 1, some "A")] := by
    decide +kernel
  have htext : (Session.prepare (planPlaced none placed).table {}
      (planPlaced none placed).libraries).toOption.map (fun session =>
        ((writeLibraries 0 (planPlaced none placed).libraries).run session).1[2]?.map
          OutputLibrary.text) = some (some text) := by
    decide +kernel
  rw [hprepare] at hnamed htext
  simp only [Except.toOption, Option.map_some, Option.some.injEq, List.map_cons, List.map_nil,
    List.cons.injEq, Option.map_eq_some_iff, Prod.mk.injEq, and_true] at hnamed
  obtain ⟨⟨s, hs, hsnamed, hslibrary, hsname⟩, t, ht, htnamed, htlibrary, htname⟩ := hnamed
  refine ⟨[first, second, third], session, hread, ?_⟩
  rw [hplan]
  exact ⟨hprepare, ⟨s, t, hs, ht, hsnamed, htnamed, hslibrary, htlibrary, hsname, htname⟩,
    Option.some.inj htext⟩

end Interop
