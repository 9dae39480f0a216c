import Interop.Proofs.Collection.MergedClasses
import Interop.Proofs.Renumbering.Rearrangement

/-!
# Classes and interfaces merge in any order

A class and the interfaces of its name become one symbol, whichever of them comes first and whatever
is declared between them.  What the symbol holds is said by the declarations together, so other
orders of them give symbols that differ in the order of members and bases alone.

* `blankAll` — statements without what the classes and interfaces of a name say.
* `ReadFile.Rearranges` — a file whose classes and interfaces of a name stand in another order.
* `Symbol.MergedFrom` — the symbol of a class and of the interfaces of its name.
* `Rekeyed.body` — the same declaration says the same in both files, up to numbers.
* **`classes_merge`** — the symbol of a class, and what another order leaves of it.
-/

namespace Interop

open Source

/-! ## Another order -/

/-- Whether a declaration is a class or an interface with a name. -/
def declaresClass (name : String) : Declaration → Bool
  | .interface node => node.name == name
  | .klass node => node.name == some name
  | _ => false

mutual

/-- A statement without what it says, if it is a class or an interface of a name in a namespace. -/
def blankStatement (target : List String) (name : String) (names : List String) :
    Statement → Statement
  | .declaration exported d =>
    if names = target ∧ declaresClass name d then
      .declaration false (.interface ⟨Span.none, name, [], [], []⟩)
    else .declaration exported (blankDeclaration target name names d)
  | s => s

/-- A declaration in which the classes and interfaces of a name in a namespace say nothing. -/
def blankDeclaration (target : List String) (name : String) (names : List String) :
    Declaration → Declaration
  | .nameSpace span inner body =>
    match nestingName? inner with
    | some other => .nameSpace span inner (blankAll target name (names ++ [other]) body)
    | none => .nameSpace span inner (blankAll target name names body)
  | d => d

/-- **Statements without what the classes and interfaces of a name say.** -/
def blankAll (target : List String) (name : String) (names : List String) :
    List Statement → List Statement
  | [] => []
  | s :: rest => blankStatement target name names s :: blankAll target name names rest

end

/-- **The classes and interfaces of a name in another order.**  They trade their places and nothing
else changes; or anything is moved, and the first type of each path stays the first. -/
inductive ReadFile.Rearranges (f : ReadFile) (names : List String) (name : String)
    (program : Program) : Prop where
  | traded
      (own : (({ f with program } : ReadFile).declarationsAt names name).Perm
        (f.declarationsAt names name))
      (others : blankAll names name f.place.names program.body =
        blankAll names name f.place.names f.program.body)
  | moved
      (own : (({ f with program } : ReadFile).declarationsAt names name).Perm
        (f.declarationsAt names name))
      (declared : ∀ key, key ∈ ({ f with program } : ReadFile).mergedKeys ↔ key ∈ f.mergedKeys)
      (first : ∀ path, ({ f with program } : ReadFile).firstType path = f.firstType path)

section

variable {target : List String} {name module : String}

lemma declarationKeys_of_declaresClass {d : Declaration} (h : declaresClass name d)
    (names : List String) : (declarationKeys module names d).map DeclKey.merged =
      [(keyOf module names name .klass).merged] := by
  cases d with
  | interface node =>
      obtain rfl := beq_iff_eq.mp h
      rfl
  | klass node =>
      simp only [declarationKeys, simpleKeys, namesOf, beq_iff_eq.mp h]
      rfl
  | _ => cases h

mutual

lemma statementKeys_blank : ∀ (names : List String) (s : Statement),
    (statementKeys module names (blankStatement target name names s)).map DeclKey.merged =
      (statementKeys module names s).map DeclKey.merged
  | names, .declaration exported d => by
      simp only [blankStatement]
      split_ifs with h
      · exact (declarationKeys_of_declaresClass h.2 names).symm
      · exact declarationKeys_blank names d
  | _, .global _ => rfl
  | _, .exportAssignment _ => rfl
  | _, .otherExport _ => rfl
  | _, .imports _ => rfl
  | _, .block _ => rfl
  | _, .compound _ _ => rfl

lemma declarationKeys_blank : ∀ (names : List String) (d : Declaration),
    (declarationKeys module names (blankDeclaration target name names d)).map DeclKey.merged =
      (declarationKeys module names d).map DeclKey.merged
  | names, .nameSpace span inner body => by
      simp only [blankDeclaration, declarationKeys]
      cases hname : nestingName? inner with
      | none => simpa [declarationKeys, hname] using keysOf_blank names body
      | some other => simpa [declarationKeys, hname] using keysOf_blank (names ++ [other]) body
  | _, .interface _ => rfl
  | _, .klass _ => rfl
  | _, .alias _ => rfl
  | _, .enum _ => rfl
  | _, .function _ => rfl
  | _, .variables _ _ => rfl

/-- Where classes and interfaces say nothing, the same is declared. -/
lemma keysOf_blank : ∀ (names : List String) (statements : List Statement),
    (keysOf module names (blankAll target name names statements)).map DeclKey.merged =
      (keysOf module names statements).map DeclKey.merged
  | _, [] => rfl
  | names, s :: rest => by
      simp only [blankAll, keysOf, List.map_append]
      rw [statementKeys_blank names s, keysOf_blank names rest]

end

end

namespace ReadFile.Rearranges

variable {f : ReadFile} {names : List String} {name : String} {program : Program}
  (h : f.Rearranges names name program)
include h

lemma own : (({ f with program } : ReadFile).declarationsAt names name).Perm
    (f.declarationsAt names name) := by
  cases h <;> assumption

/-- Another order declares the same. -/
lemma rekeyed {before after : List ReadFile} (htop : ∀ g ∈ before ++ f :: after, g.IsTop)
    (hmodules : ((before ++ f :: after).map (·.place.module)).Nodup) :
    Rekeyed before after f { f with program } := by
  cases h with
  | moved _ declared first => exact ⟨htop, hmodules, rfl, declared, first⟩
  | traded _ others =>
      have hkeys : ({ f with program } : ReadFile).mergedKeys = f.mergedKeys := by
        have hblank := congrArg (fun body => (keysOf f.place.module f.place.names body).map
          DeclKey.merged) others
        rwa [keysOf_blank, keysOf_blank] at hblank
      exact ⟨htop, hmodules, rfl, fun _ => by rw [hkeys],
        fun _ => by rw [ReadFile.firstType, hkeys, ReadFile.firstType]⟩

end ReadFile.Rearranges

/-- One file of a run has another text. -/
lemma placeFiles_set {files : List SourceFile} {programs : List Program} {f : ReadFile}
    (hf : f ∈ placeFiles files programs) (program : Program) : ∃ before after,
      placeFiles files programs = before ++ f :: after ∧
        placeFiles files (programs.set f.place.file program) =
          before ++ { f with program } :: after := by
  obtain ⟨i, hi, hfi⟩ := List.mem_iff_getElem.mp hf
  obtain ⟨file, stem, old, hfile, hstem, hold, he⟩ :=
    placeFiles_getElem? (List.getElem?_eq_some_iff.mpr ⟨hi, hfi⟩)
  have hset : placeFiles files (programs.set f.place.file program) =
      (placeFiles files programs).set i { f with program } := by
    have hplace : f.place.file = i := by rw [he]
    rw [hplace]
    refine List.ext_getElem? fun j => ?_
    by_cases hij : i = j
    · subst hij
      rw [List.getElem?_set_self hi, he]
      simp [placeFiles, List.getElem?_zipIdx, List.getElem?_zip_eq_some, hfile, hstem,
        List.getElem?_set_self', hold]
    · rw [List.getElem?_set_ne hij]
      simp [placeFiles, List.getElem?_zipIdx, List.zip_eq_zipWith, List.getElem?_zipWith,
        List.getElem?_set_ne hij]
  refine ⟨(placeFiles files programs).take i, (placeFiles files programs).drop (i + 1), ?_, ?_⟩
  · rw [← hfi, List.getElem_cons_drop, List.take_append_drop]
  · rw [hset, List.set_eq_take_append_cons_drop, if_pos hi]

/-! ## The symbol of a class -/

/-- A path leads to one class or interface of a table. -/
def SymbolTable.OnlyClass (t : SymbolTable) (path : DeclPath) (id : Nat) (s : Symbol) : Prop :=
  ∀ other u, (t.get? other = some u ∧ u.path = path ∧ (u.kind = .klass ∨ u.kind = .interface)) ↔
    other = id ∧ u = s

/-- **The symbol of a class and of the interfaces of its name**: a class that holds what all of the
declarations say, its superclass first. -/
structure Symbol.MergedFrom (s : Symbol) (params : List String) (node : ClassNode)
    (declarations : List SimpleDeclaration) (body : SimpleDeclaration → ClassBody) : Prop where
  kind : s.kind = .klass
  typeParams : s.typeParams = params
  members : s.members = declarations.flatMap fun d => (body d).members
  hasSuperclass : s.hasSuperclass = node.superclass.isSome
  superclass : (body (.klass node)).superclass.isSome = node.superclass.isSome
  bases : ∃ others, s.bases = (body (.klass node)).superclass.toList ++ others ∧
    others.Perm (declarations.flatMap fun d => (body d).heritage)

/-- **Symbols of one class**, up to the order of members and of bases behind the superclass. -/
structure Symbol.SameClass (f : Nat → Nat) (s s' : Symbol) : Prop where
  kind : s'.kind = s.kind
  typeParams : s'.typeParams = s.typeParams
  hasSuperclass : s'.hasSuperclass = s.hasSuperclass
  superclass : s.hasSuperclass = true → s'.bases.head? = s.bases.head?.map (Ty.mapSymbols f)
  members : s'.members.Perm (s.members.map (Member.mapSymbols f))
  bases : s'.bases.Perm (s.bases.map (Ty.mapSymbols f))

namespace Symbol

variable {s s' : Symbol} {params : List String} {node : ClassNode}
  {declarations declarations' : List SimpleDeclaration} {body body' : SimpleDeclaration → ClassBody}

/-- Only the class has a superclass. -/
lemma superclasses_eq (hclass : declarations.filterMap (·.class?) = [node])
    (hbody : ∀ d, (body d).superclass.isSome = (d.class?.bind (·.superclass)).isSome) :
    (declarations.map body).filterMap (·.superclass) = (body (.klass node)).superclass.toList := by
  have hown : ∀ d,
      (body d).superclass = d.class?.bind fun node => (body (.klass node)).superclass := by
    intro d
    cases d with
    | klass node => rfl
    | _ => exact Option.isNone_iff_eq_none.mp (by rw [← Option.not_isSome, hbody]; rfl)
  calc (declarations.map body).filterMap (·.superclass)
    _ = declarations.filterMap fun d =>
          d.class?.bind fun node => (body (.klass node)).superclass := by
      rw [List.filterMap_map]
      exact List.filterMap_congr fun d _ => hown d
    _ = (declarations.filterMap (·.class?)).filterMap fun node =>
          (body (.klass node)).superclass := List.filterMap_filterMap.symm
    _ = (body (.klass node)).superclass.toList := by
      rw [hclass]
      cases hsuper : (body (.klass node)).superclass <;> simp [hsuper]

/-- Bodies of one class, added in order, make its symbol. -/
lemma Gathers.mergedFrom (h : s.Gathers params (declarations.map body)) (hkind : s.kind = .klass)
    (hclass : declarations.filterMap (·.class?) = [node])
    (hbody : ∀ d, (body d).superclass.isSome = (d.class?.bind (·.superclass)).isSome) :
    s.MergedFrom params node declarations body := by
  have hsuper := superclasses_eq hclass hbody
  have hnode : (body (.klass node)).superclass.isSome = node.superclass.isSome := hbody _
  have hsome : s.hasSuperclass = (body (.klass node)).superclass.isSome := by
    have hmem : ∀ ty, (body (.klass node)).superclass = some ty ↔
        ∃ b ∈ declarations.map body, b.superclass = some ty := fun ty => by
      rw [← Option.mem_toList, ← hsuper, List.mem_filterMap]
    rw [h.hasSuperclass, Bool.eq_iff_iff, List.any_eq_true]
    simp only [Option.isSome_iff_exists, hmem]
    exact ⟨fun ⟨b, hb, ty, hty⟩ => ⟨ty, b, hb, hty⟩, fun ⟨ty, b, hb, hty⟩ => ⟨b, hb, ty, hty⟩⟩
  have hbases : s.bases.Perm ((body (.klass node)).superclass.toList ++
      declarations.flatMap fun d => (body d).heritage) := by
    refine h.bases.trans ?_
    rw [← hsuper, List.filterMap_eq_flatMap_toList, List.flatMap_map, List.flatMap_map]
    exact (List.flatMap_append_perm _ _ _).symm
  refine ⟨hkind, ?_, ?_, hsome.trans hnode, hnode, ?_⟩
  · rw [h.typeParams, if_neg]
    rintro hempty
    rw [List.isEmpty_iff, List.map_eq_nil_iff] at hempty
    rw [hempty] at hclass
    cases hclass
  · rw [h.members, List.flatMap_map]
  · cases hown : (body (.klass node)).superclass with
    | none => exact ⟨s.bases, rfl, by simpa [hown] using hbases⟩
    | some ty =>
        have hhead := h.superclass ty (by rw [hsuper, hown]; rfl)
        obtain ⟨others, hothers⟩ := List.head?_eq_some_iff.mp hhead
        refine ⟨others, hothers, ?_⟩
        rw [hothers, hown] at hbases
        exact hbases.cons_inv

/-- **The same declarations in another order make the same class.** -/
lemma MergedFrom.sameClass {f : Nat → Nat} (h : s.MergedFrom params node declarations body)
    (h' : s'.MergedFrom params node declarations' body') (hown : declarations'.Perm declarations)
    (hbody : ∀ d, body' d = (body d).mapSymbols f) : s.SameClass f s' := by
  obtain ⟨others, hbases, hothers⟩ := h.bases
  obtain ⟨others', hbases', hothers'⟩ := h'.bases
  rw [hbody] at hbases'
  refine ⟨h'.kind.trans h.kind.symm, h'.typeParams.trans h.typeParams.symm,
    h'.hasSuperclass.trans h.hasSuperclass.symm, fun hhas => ?_, ?_, ?_⟩
  · obtain ⟨ty, hty⟩ := Option.isSome_iff_exists.mp
      (h.superclass.trans (h.hasSuperclass.symm.trans hhas))
    rw [hbases, hbases', ClassBody.mapSymbols, hty]
    rfl
  · rw [h.members, h'.members, List.map_flatMap]
    simp only [hbody]
    exact hown.flatMap_right _
  · rw [hbases, hbases', List.map_append, ClassBody.mapSymbols, Option.toList_map]
    refine .append_left _ (hothers'.trans ?_)
    refine .trans ?_ (hothers.map _).symm
    rw [List.map_flatMap]
    simp only [hbody]
    exact hown.flatMap_right _

end Symbol

/-! ## Runs -/

section

variable {files : List ReadFile} {f : ReadFile} {names : List String} {name : String}
  {params : List String} {node : ClassNode}

/-- The table of a run has one symbol for a class and the interfaces of its name. -/
lemma collect_mergedFrom (hmodules : (files.map (·.place.module)).Nodup) (hf : f ∈ files)
    (hclass : (f.declarationsAt names name).filterMap (·.class?) = [node])
    (hparams : ∀ d ∈ f.declarationsAt names name, d.typeParams = params) :
    ∃ id s, (collect files).1.OnlyClass (f.typePath names name) id s ∧
      s.MergedFrom params node (f.declarationsAt names name)
        fun d => d.body (collect files).1 f.place names id := by
  have hnode : .klass node ∈ f.declarationsAt names name := by
    have hmem : node ∈ (f.declarationsAt names name).filterMap (·.class?) := by simp [hclass]
    obtain ⟨d, hd, he⟩ := List.mem_filterMap.mp hmem
    cases d with
    | klass other => exact Option.some.inj he ▸ hd
    | _ => cases he
  obtain ⟨id, s, -, hs, hpath, hklass, hgathers⟩ := collect_gathers hmodules hf hnode hparams
  refine ⟨id, s, fun other u => ⟨?_, ?_⟩,
    hgathers.mergedFrom hklass hclass (SimpleDeclaration.body_superclass_isSome _ _ _ _)⟩
  · rintro ⟨hu, hupath, hukind⟩
    have hushared : u.kind.shared = .klass := by
      rcases hukind with hukind | hukind <;> rw [hukind] <;> rfl
    obtain rfl := collect_class_unique hs hpath (by rw [hklass]; rfl) hu hupath hushared
    exact ⟨rfl, Option.some.inj (hu.symm.trans hs)⟩
  · rintro ⟨rfl, rfl⟩
    exact ⟨hs, hpath, .inl hklass⟩

end

namespace Rekeyed

variable {before after : List ReadFile} {f f' : ReadFile} (h : Rekeyed before after f f')
include h

/-- **The same declaration says the same in both files**, up to numbers. -/
lemma body {id : Nat} (hid : (declareFiles (before ++ f :: after)).table.IsTypeSymbol id)
    (declaration : SimpleDeclaration) (place : Place) (names : List String) :
    declaration.body (collect (before ++ f' :: after)).1 place names (h.renumbering.symbol id) =
      (declaration.body (collect (before ++ f :: after)).1 place names id).mapSymbols
        h.renumbering.symbol := by
  refine SimpleDeclaration.body_renumber (collect_bare _) (fun name file => ?_) hid declaration place
    names
  rw [SymbolTable.lookup_congr (collect_bare _), SymbolTable.lookup_congr (collect_bare _),
    h.lookup]

/-- Symbols that correspond, in the tables of whole runs. -/
lemma collect_get? {id : Nat} {s : Symbol}
    (hs : (collect (before ++ f :: after)).1.get? id = some s) :
    ∃ s', (collect (before ++ f' :: after)).1.get? (h.renumbering.symbol id) = some s' ∧
      s'.path = s.path ∧ s'.kind.shared = s.kind.shared ∧ s'.file = s.file := by
  obtain ⟨t, ht, hskind, hspath, hsfile, -⟩ := collect_declared hs
  obtain ⟨t', ht', hpath, hkind, hfile⟩ := h.get?_some ht
  obtain ⟨s', hs', hbare⟩ := SymbolTable.get?_congr (collect_bare _).symm ht'
  obtain ⟨-, hskind', hsfile', -, hspath', -⟩ := Symbol.of_bare hbare
  refine ⟨s', hs', ?_, ?_, ?_⟩
  · rw [← hspath', hpath, hspath]
  · rw [← hskind', hkind, hskind]
  · rw [← hsfile', hfile, hsfile]

/-- Another order makes the same class. -/
lemma sameClass {names : List String} {name : String} {params : List String} {node : ClassNode}
    (hown : (f'.declarationsAt names name).Perm (f.declarationsAt names name))
    (hclass : (f.declarationsAt names name).filterMap (·.class?) = [node])
    (hparams : ∀ d ∈ f.declarationsAt names name, d.typeParams = params)
    {id : Nat} {s : Symbol}
    (hs : (collect (before ++ f :: after)).1.OnlyClass (f.typePath names name) id s)
    (hmerged : s.MergedFrom params node (f.declarationsAt names name)
      fun d => d.body (collect (before ++ f :: after)).1 f.place names id) :
    ∃ s', (collect (before ++ f' :: after)).1.OnlyClass (f.typePath names name)
      (h.renumbering.symbol id) s' ∧ s.SameClass h.renumbering.symbol s' := by
  have hclass' : (f'.declarationsAt names name).filterMap (·.class?) = [node] :=
    List.perm_singleton.mp ((hown.filterMap _).trans (.of_eq hclass))
  obtain ⟨id', s', hs', hmerged'⟩ := collect_mergedFrom h.modules_right (by simp) hclass'
    fun d hd => hparams d (hown.mem_iff.mp hd)
  obtain ⟨hget, hpath, -⟩ := (hs id s).mpr ⟨rfl, rfl⟩
  obtain ⟨u, hu, hupath, hukind, -⟩ := h.collect_get? hget
  have hklass : u.kind = .klass ∨ u.kind = .interface := by
    rw [hmerged.kind] at hukind
    cases hcase : u.kind <;> simp_all [SymbolKind.shared]
  have hsame : f'.typePath names name = f.typePath names name := by
    rw [ReadFile.typePath, ReadFile.typePath, h.place]
  rw [hsame] at hs'
  -- the symbol of the class is the only one with its path, so it is the one that corresponds
  obtain ⟨rfl, rfl⟩ := (hs' _ u).mp ⟨hu, hupath.trans hpath, hklass⟩
  obtain ⟨t, ht, htkind, -⟩ := collect_declared hget
  refine ⟨u, hs', hmerged.sameClass hmerged' hown fun d => ?_⟩
  rw [h.place]
  exact h.body ⟨t, ht, .inl (htkind.symm.trans hmerged.kind)⟩ d f.place names

end Rekeyed

/-- **Classes and interfaces merge in any order.**  If one class and any number of interfaces of a
name stand in a namespace of a file, and all have the same type parameters, then a run has one
symbol for them: a class with these type parameters, with the members of all in their order, and with
what all of them extend and implement as bases, the superclass first.  In another order they make the
same symbol, up to the numbers of symbols and the order of members and of bases behind the
superclass. -/
theorem classes_merge (merge : Option String) {files : List SourceFile} {programs : List Program}
    {f : ReadFile} (hf : f ∈ placeFiles files programs) {names : List String} {name : String}
    {params : List String} {node : ClassNode}
    (hclass : (f.declarationsAt names name).filterMap (·.class?) = [node])
    (hparams : ∀ d ∈ f.declarationsAt names name, d.typeParams = params) :
    let table := (planRun merge files programs).table
    ∃ id s, table.OnlyClass (f.typePath names name) id s ∧
      s.MergedFrom params node (f.declarationsAt names name)
        (fun d => d.body table f.place names id) ∧
      ∀ program, f.Rearranges names name program →
        let table' := (planRun merge files (programs.set f.place.file program)).table
        ∃ (ρ : Renumbering) (s' : Symbol),
          (∀ other u, table.get? other = some u → ∃ u', table'.get? (ρ.symbol other) = some u' ∧
            u'.path = u.path ∧ u'.kind.shared = u.kind.shared ∧ u'.file = u.file) ∧
          table'.OnlyClass (f.typePath names name) (ρ.symbol id) s' ∧
          s.SameClass ρ.symbol s' := by
  intro table
  obtain ⟨id, s, hs, hmerged⟩ := collect_mergedFrom placeFiles_modules_nodup hf hclass hparams
  refine ⟨id, s, hs, hmerged, fun program hprogram => ?_⟩
  intro table'
  obtain ⟨before, after, hplaced, hplaced'⟩ := placeFiles_set hf program
  have htable : table = (collect (before ++ f :: after)).1 := by
    rw [← hplaced]
    rfl
  have htable' : table' = (collect (before ++ { f with program } :: after)).1 := by
    rw [← hplaced']
    rfl
  have h : Rekeyed before after f { f with program } :=
    hprogram.rekeyed (hplaced ▸ placeFiles_isTop) (hplaced ▸ placeFiles_modules_nodup)
  rw [hplaced] at hs hmerged
  obtain ⟨s', hs', hsame⟩ := h.sameClass hprogram.own hclass hparams hs hmerged
  refine ⟨h.renumbering, s', ?_, htable' ▸ hs', hsame⟩
  rw [htable, htable']
  exact fun other u => h.collect_get?

set_option maxRecDepth 2000 in
/-- An interface, the superclass, and the class that joins the interface; then the class first. -/
theorem classes_merge_interface_first :
    let file : SourceFile :=
      ⟨"a", "interface A<T> { x: T } class B {} class A<T> extends B { y: T }"⟩
    let first : InterfaceNode := ⟨⟨0, 23⟩, "A", [⟨"T", []⟩], [],
      [.property ⟨17, 21⟩ (.identifier "x") false false (some ⟨⟨20, 21⟩, .reference ["T"] []⟩)]⟩
    let between : ClassNode := ⟨⟨24, 34⟩, some "B", [], none, [], [], []⟩
    let last : ClassNode :=
      ⟨⟨35, 64⟩, some "A", [⟨"T", []⟩], some (.identifier ⟨54, 55⟩ "B"), [], [],
        [.property ⟨58, 62⟩ (.identifier "y") false false false false
          (some ⟨⟨61, 62⟩, .reference ["T"] []⟩) none]⟩
    let program : Program := ⟨[.declaration false (.interface first),
      .declaration false (.klass between), .declaration false (.klass last)]⟩
    let traded : Program := ⟨[.declaration false (.klass last),
      .declaration false (.klass between), .declaration false (.interface first)]⟩
    let table := (planRun none [file] [program]).table
    let table' := (planRun none [file] [traded]).table
    file.read = .ok program ∧ ∃ f ∈ placeFiles [file] [program],
      f.declarationsAt [] "A" = [.interface first, .klass last] ∧ f.Rearranges [] "A" traded ∧
        ∃ (ρ : Renumbering) (id : Nat) (s s' : Symbol),
          table.OnlyClass (f.typePath [] "A") id s ∧ s.typeParams = ["T"] ∧
          s.hasSuperclass = true ∧ table'.OnlyClass (f.typePath [] "A") (ρ.symbol id) s' ∧
          s.SameClass ρ.symbol s' := by
  intro file first between last program traded table table'
  have hread : file.read = .ok program :=
    SourceFile.read_of_parse (by cbv) (by cbv) (by decide +kernel)
  have hstem : moduleStem file.path = "a" := (moduleStem_of_fileName (by cbv)).trans (by decide)
  let f : ReadFile := ⟨"a", { file := 0, module := "a", source := file.text }, program⟩
  have hf : f ∈ placeFiles [file] [program] := by
    rw [placeFiles_singleton file program hstem]
    exact List.mem_singleton_self f
  have hown : f.declarationsAt [] "A" = [.interface first, .klass last] := rfl
  have htraded : f.Rearranges [] "A" traded := .traded (.swap _ _ _) rfl
  have hclass : (f.declarationsAt [] "A").filterMap (·.class?) = [last] := rfl
  have hparams : ∀ d ∈ f.declarationsAt [] "A", d.typeParams = ["T"] := by
    simp [hown, SimpleDeclaration.typeParams, first, last]
  obtain ⟨id, s, hs, hmerged, hother⟩ := classes_merge none hf hclass hparams
  obtain ⟨ρ, s', -, hs', hsame⟩ := hother traded htraded
  exact ⟨hread, f, hf, hown, htraded, ρ, id, s, s', hs, hmerged.typeParams,
    hmerged.hasSuperclass, hs', hsame⟩

end Interop
