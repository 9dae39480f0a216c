import Interop.Proofs.Collection.FileAccounts
import Mathlib

/-!
# What is reported when declarations are collected

What has no counterpart in the type language is kept as it is written or left out, and a note says
so.  Two things go without a note: a base that is not a name, and an element of a class whose name is
not known.

* `MemberNode.Covered` — an element of an interface or an object type is lowered, or noted.
* `ClassElement.isHidden`, `ClassElement.isDropped` — the elements of a class that are left out.
* `SimpleDeclaration.Covered` — what becomes of the elements of a declaration.
* **`collect_reports`** — every text that is kept, and every element of a body, is accounted for.
-/

namespace Interop

open Source

/-! ## Elements -/

namespace Source

/-- An element of an interface or an object type is among the members, or is noted at its place. -/
def MemberNode.Covered (node : MemberNode) (members : List Member) (notes : List Diagnostic) :
    Prop :=
  (∃ mark, node.mark? = some mark ∧ mark.In members) ∨ ∃ note ∈ notes, note.span = node.span

/-- Whether a name is a private one. -/
def PropertyKey.isHash : PropertyKey → Bool
  | .hash _ => true
  | .identifier _ | .string _ | .number | .computed => false

/-- Whether an element of a class is not part of what can be used. -/
def ClassElement.isHidden : ClassElement → Bool
  | .method _ key _ _ _ isPrivate _ | .property _ key _ _ _ isPrivate _ _ =>
    isPrivate || key.isHash
  | .index _ | .accessor .. | .initializer _ => false

/-- Whether an element of a class that could be used is left out all the same: it has a number or
an expression for a name, an accessor of its own, or is no more than statements. -/
def ClassElement.isDropped : ClassElement → Bool
  | .method _ key _ _ _ _ _ | .property _ key _ _ _ _ _ _ => key == .number || key == .computed
  | .index m => m.isUnnamed
  | .accessor .. | .initializer _ => true

lemma PropertyKey.name?_eq_none (key : PropertyKey) :
    key.name? = none ↔ key.isHash = true ∨ (key == .number || key == .computed) = true := by
  cases key <;> simp [PropertyKey.name?, PropertyKey.isHash]

/-- An element of a class has a mark unless it is left out. -/
lemma ClassElement.mark?_eq_none {element : ClassElement} (h : element.mark? = none) :
    element.isHidden = true ∨ element.isDropped = true := by
  cases element with
  | method span key kind isStatic optional isPrivate f =>
      simp only [ClassElement.mark?] at h
      simp only [ClassElement.isHidden, ClassElement.isDropped, Bool.or_eq_true (isPrivate)]
      cases isPrivate with
      | true => exact .inl (.inl rfl)
      | false =>
          cases hname : key.name? with
          | none => exact ((key.name?_eq_none).mp hname).imp_left .inr
          | some name =>
              rw [hname] at h
              cases kind <;> cases h
  | property span key isStatic optional readonly isPrivate type value =>
      simp only [ClassElement.mark?] at h
      simp only [ClassElement.isHidden, ClassElement.isDropped, Bool.or_eq_true (isPrivate)]
      cases isPrivate with
      | true => exact .inl (.inl rfl)
      | false =>
          cases hname : key.name? with
          | none => exact ((key.name?_eq_none).mp hname).imp_left .inr
          | some name =>
              rw [hname] at h
              cases h
  | index m => exact .inr (m.isUnnamed_eq.trans (Option.isNone_iff_eq_none.mpr h))
  | accessor => exact .inr rfl
  | initializer => exact .inr rfl

end Source

/-- **What becomes of the elements in the body of a declaration.**  Those of an interface are among
the members of its symbol or noted.  Those of a class are among the members unless they are left
out. -/
def SimpleDeclaration.Covered (members : List Member) (notes : List Diagnostic) :
    SimpleDeclaration → Prop
  | .interface node => ∀ element ∈ node.members, element.Covered members notes
  | .klass node => ∀ element ∈ node.elements, element.isHidden = true ∨ element.isDropped = true ∨
      ∃ mark, element.mark? = some mark ∧ mark.In members
  | .alias _ | .enum _ | .function _ | .variable .. => True

/-! ## Symbols -/

section

variable {files : List ReadFile}

/-- A declaration with a name has a symbol. -/
lemma Site.exists_symbol {f : ReadFile} (hf : f ∈ files) {site : Site} (hsite : site ∈ f.sites)
    (hname : site.declaration.name?.isSome = true) :
    ∃ id, site.symbol? (declareFiles files) f.place.module = some id := by
  obtain ⟨name, hname⟩ := Option.isSome_iff_exists.mp hname
  have hpath : site.path? f.place.module =
      some ⟨f.place.module :: site.names ++ [name], site.declaration.kind.role⟩ := by
    rw [Site.path?, hname]
    rfl
  have hkey : (_, site.declaration.kind) ∈ f.keys := sitesOf_keys hsite _ hpath
  have hfound := ((declareFiles_registered files).key _ _).mpr
    (List.mem_flatMap.mpr ⟨f, hf, hkey⟩)
  obtain ⟨id, hid⟩ := Option.isSome_iff_exists.mp hfound
  exact ⟨id, by rw [Site.symbol?, hpath]; exact hid⟩

end

/-! ## Bodies -/

/-- An element of an interface is covered: by a member if it has a mark, and else by a note. -/
lemma MemberNode.covered_of {node : MemberNode} {members : List Member} {notes : List Diagnostic}
    (hmark : ∀ mark, node.mark? = some mark → mark.In members)
    (hnote : node.isUnnamed = true → ∃ note ∈ notes, note.span = node.span) :
    node.Covered members notes := by
  cases h : node.mark? with
  | some mark => exact .inl ⟨mark, h, hmark mark h⟩
  | none => exact .inr (hnote (by rw [node.isUnnamed_eq, h]; rfl))

/-- The elements of an object type are covered, wherever it is lowered. -/
lemma MemberNode.lowerAllOnto_covered (scope : LoweringScope) (nodes : List MemberNode)
    (before : List Diagnostic) {notes : List Diagnostic}
    (hnotes : ∀ m ∈ nodes, m.isUnnamed = true → ∃ note ∈ notes, note.span = m.span) :
    ∀ m ∈ nodes, m.Covered (((MemberNode.lowerAllOnto [] nodes) scope).run before).1 notes :=
  fun m hm => MemberNode.covered_of
    ((MemberNode.lowerAllOnto_marks scope nodes [] before).2 m hm) (hnotes m hm)

/-- The elements of a declaration are covered. -/
lemma SimpleDeclaration.covered_of {declaration : SimpleDeclaration} {members : List Member}
    {notes : List Diagnostic} (hmarks : ∀ mark ∈ declaration.marks, mark.In members)
    (hnotes : ∀ nodes, .body nodes ∈ declaration.parts → ∀ m ∈ nodes, m.isUnnamed = true →
      ∃ note ∈ notes, note.span = m.span) : declaration.Covered members notes := by
  cases declaration with
  | interface node =>
      intro element helement
      have hbody : .body node.members ∈ (SimpleDeclaration.interface node).parts :=
        List.mem_cons_of_mem _ (List.mem_append_left _ List.mem_cons_self)
      exact MemberNode.covered_of
        (fun mark hmark => hmarks mark (List.mem_filterMap.mpr ⟨element, helement, hmark⟩))
        (hnotes node.members hbody element helement)
  | klass node =>
      intro element helement
      cases hmark : element.mark? with
      | some mark =>
          have hin := hmarks mark (List.mem_filterMap.mpr ⟨element, helement, hmark⟩)
          exact .inr (.inr ⟨mark, rfl, hin⟩)
      | none => exact (ClassElement.mark?_eq_none hmark).imp_right .inl
  | «alias» | enum | function | «variable» => trivial

/-! ## Runs -/

section

variable (files : List SourceFile) (programs : List Program)

/-- A text that is kept is noted in the file of its symbol, or is a base that is not a name. -/
lemma collect_raws {id : Nat} {s : Symbol}
    (hs : (collect (placeFiles files programs)).1.get? id = some s) {text : String}
    (htext : text ∈ s.raws) :
    ∃ f g, (f, g) ∈ (placeFiles files programs).zip (collect (placeFiles files programs)).2 ∧
      g.file = s.file ∧ ((∃ note ∈ g.notes, note.span.slice f.place.source = text) ∨
        ∃ site ∈ f.sites,
          site.symbol? (declareFiles (placeFiles files programs)) f.place.module = some id ∧
            site.HasUnnamedBase f.place.source text) := by
  have haccounts := collect_accounts (placeFiles files programs) placeFiles_modules_nodup
  have hbare : s.bare ≠ s := by
    intro hbare
    rw [← hbare] at htext
    cases htext
  obtain ⟨f, hf, howns⟩ := exists_owner_of_bare hs hbare
  have hfile := howns.file placeFiles_isTop placeFiles_modules_nodup hf hs
  obtain ⟨hlength, hpairs⟩ := List.forall₂_iff_zip.mp haccounts
  obtain ⟨i, hi, rfl⟩ := List.mem_iff_getElem.mp hf
  have hpair := List.getElem_mem (l := (placeFiles files programs).zip
    (collect (placeFiles files programs)).2) (n := i) (by rw [List.length_zip]; omega)
  rw [List.getElem_zip] at hpair
  obtain ⟨-, hgfile, haccount⟩ := hpairs hpair
  exact ⟨_, _, hpair, hgfile.trans hfile.symm, haccount.raws id s howns hs text htext⟩

/-- **What is kept as written, and what is left out, when declarations are collected.**

A text that is kept in a type of a symbol is noted in the file of the symbol, at a place where it is
written; or it is a base of the symbol that is not a name.

A declaration with a name has a symbol.  An element of an interface is among the members of the
symbol, or is noted at its place.  An element of a class is among the members, unless it is private
or has a name that is not known, an accessor of its own or no more than statements.  An element of an
object type in the declaration is among the members of the type, or is noted at its place; only the
body of a function that follows overloads is not looked at. -/
theorem collect_reports :
    let placed := placeFiles files programs
    let declared := declareFiles placed
    let table := (collect placed).1
    (∀ id s, table.get? id = some s → ∀ text ∈ s.raws,
      ∃ f g, (f, g) ∈ placed.zip (collect placed).2 ∧ g.file = s.file ∧
        ((∃ note ∈ g.notes, note.span.slice f.place.source = text) ∨
          ∃ site ∈ f.sites, site.symbol? declared f.place.module = some id ∧
            site.HasUnnamedBase f.place.source text)) ∧
    List.Forall₂ (fun f g => ∀ i (site : Site), f.sites[i]? = some site →
      site.declaration.name?.isSome = true →
        ∃ id s, site.symbol? declared f.place.module = some id ∧ table.get? id = some s ∧
          site.declaration.Covered s.members g.notes ∧
          (¬ site.FollowsOverload declared f.place.module (f.sites.take i) →
            ∀ nodes, .body nodes ∈ site.declaration.parts → ∀ span scope before, ∃ members,
              (((TypeForm.shape nodes).lower span scope).run before).1 = .shape members ∧
                ∀ m ∈ nodes, m.Covered members g.notes))
      placed (collect placed).2 := by
  intro placed declared table
  refine ⟨fun id s hs text htext => collect_raws files programs hs htext, ?_⟩
  have haccounts := collect_accounts placed placeFiles_modules_nodup
  refine List.forall₂_iff_zip.mpr ⟨haccounts.length_eq, fun {f g} hpair => ?_⟩
  obtain ⟨-, -, haccount⟩ := (List.forall₂_iff_zip.mp haccounts).2 hpair
  intro i site hi hname
  have hsite : site ∈ f.sites := List.mem_of_getElem? hi
  obtain ⟨id, hid⟩ := Site.exists_symbol (List.of_mem_zip hpair).1 hsite hname
  obtain ⟨s, hs, hmarks⟩ := haccount.marks site hsite id hid
  -- the elements of a body that have no mark are noted
  have hnotes := haccount.bodies i site hi (by rw [hid]; rfl)
  refine ⟨id, s, hid, hs, ?_, fun hfollows nodes hbody span scope before => ?_⟩
  · by_cases hfollows : site.FollowsOverload declared f.place.module (f.sites.take i)
    · obtain ⟨⟨node, hnode, -⟩, -⟩ := hfollows
      rw [hnode]
      trivial
    · exact SimpleDeclaration.covered_of hmarks (hnotes hfollows)
  · refine ⟨_, rfl, ?_⟩
    exact MemberNode.lowerAllOnto_covered scope nodes before (hnotes hfollows nodes hbody)

end

set_option maxRecDepth 2000 in
/-- A class whose only method has an expression for a name.  The method is not private; it is not
among the members of the class, and nothing is noted. -/
theorem collect_drops_method :
    let file : SourceFile := ⟨"a", "class A \x7b [Symbol.iterator](): void; \x7d"⟩
    ∃ program node element, file.read = .ok program ∧
      program.body = [.declaration false (.klass node)] ∧ node.name = some "A" ∧
      node.elements = [element] ∧ element.isHidden = false ∧
      let files := placeFiles [file] [program]
      ((collect files).1.get? 18).map (fun s => (s.name, s.members.length)) = some ("A", 0) ∧
        (collect files).2.map (·.notes.length) = [0] := by
  intro file
  let method : FunctionNode :=
    ⟨⟨27, 36⟩, none, ⟨[], [], none, some ⟨⟨31, 35⟩, .keyword .void⟩⟩, none⟩
  let element : ClassElement :=
    .method ⟨10, 36⟩ .computed (.method .method) false false false method
  let node : ClassNode := ⟨⟨0, 38⟩, some "A", [], none, [], [], [element]⟩
  let program : Program := ⟨[.declaration false (.klass node)]⟩
  have hread : file.read = .ok program :=
    SourceFile.read_of_parse (by cbv) (by cbv) (by decide +kernel)
  have hstem : moduleStem file.path = "a" := (moduleStem_of_fileName (by cbv)).trans (by decide)
  refine ⟨program, node, element, hread, rfl, rfl, rfl, rfl, ?_⟩
  rw [placeFiles_singleton file program hstem]
  exact ⟨by decide +kernel, by decide +kernel⟩

end Interop
