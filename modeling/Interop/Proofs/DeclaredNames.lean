import Interop.Proofs.Closure
import Interop.Proofs.Headers
import Interop.Proofs.Libraries

/-!
# What a library declares

Every name that a library declares outside of stubs is legal in its role, whatever the source calls
it: a taken word is escaped, what cannot be spelled is left to a stub or named by its place.  Two
kinds of names are not checked.  Those of type parameters are taken over as the source has them, also
where overloads are merged.  That of a library is only made to have the form of an identifier.

* `planRun_flatName_usable` — every name that a declaration is given is legal.
* `Symbol.genericNames` — the type parameters of a declaration and of its members.
* `symbolHeads_generics` — no other type parameters are declared for a symbol.
* `Session.Declares` — what is written for a symbol, and that its names are legal.
* **`generate_declares`** — the names that the libraries of a run declare.
* `generate_declares_get` — a type parameter whose name is taken.
-/

namespace Interop

open Source Work

/-! ## Flat names -/

/-- A declaration of a run is named in the role of its kind. -/
lemma collect_role (files : List ReadFile) {id : Nat} {s : Symbol}
    (hs : (collect files).1.get? id = some s) (hexternal : s.externalName = none) :
    s.path.role = s.kind.role := by
  obtain ⟨t, ht, hkind, hpath, -, hsame⟩ := collect_declared hs
  rw [hpath, hkind]
  exact (declareFiles_apart files).role id t ht (hsame ▸ hexternal)

/-- Platform types belong to no input. -/
lemma collect_external (files : List ReadFile) {id : Nat} {s : Symbol}
    (hs : (collect files).1.get? id = some s) (hfile : s.file ≠ ambientFile) :
    s.externalName = none := by
  obtain ⟨t, ht, -, -, hsame, hexternal⟩ := collect_declared hs
  have hall : t.file = ambientFile ∨ t.externalName = none :=
    declareFiles_symbols (p := fun t => t.file = ambientFile ∨ t.externalName = none)
      (fun _ h => h) (fun _ _ _ _ => .inr rfl) (fun _ _ => .inl rfl) files ht
  rw [hexternal]
  exact hall.resolve_left (hsame ▸ hfile)

/-- **Every name that a declaration of a run is given is legal** in the role of its kind. -/
theorem planRun_flatName_usable {files : List SourceFile} {programs : List Program}
    {options : GenerationOptions} {session : Session}
    (hprepare : Session.prepare (planRun options.merge files programs).table options
      (planRun options.merge files programs).libraries = .ok session)
    (hready : session.Ready (planRun options.merge files programs).table
      (planRun options.merge files programs).libraries) {id : Nat} {s : Symbol} {name : String}
    (hs : (planRun options.merge files programs).table.get? id = some s)
    (hkind : s.kind.isEmitted = true) (hexternal : s.externalName = none)
    (hname : session.flatName s = some name) :
    Identifier.validate name s.kind.role = .usable := by
  have hlegal : s.hasLegalName = true := by
    by_contra hillegal
    simp [Session.flatName, hexternal, hillegal] at hname
  have hnamed : s.isNamed = true := Symbol.isNamed_iff.mpr ⟨hkind, hexternal, hlegal⟩
  obtain ⟨other, hother, hspells⟩ := planRun_spells hprepare hready hs hnamed
  obtain rfl := Option.some.inj (hname.symm.trans hother)
  exact collect_role _ hs hexternal ▸ hspells.usable

/-! ## Type parameters -/

/-- The names of the type parameters of a member. -/
def Member.generics (m : Member) : List String :=
  (m.signature?.map (·.typeParams)).getD []

/-- The names of the type parameters of a declaration and of its members. -/
def Symbol.genericNames (s : Symbol) : List String :=
  s.typeParams ++ s.members.flatMap Member.generics

/-- The names of the type parameters that a declaration of the output has. -/
def HeadedDecl.generics : HeadedDecl → List String
  | .stub _ => []
  | .declared _ header _ _ => header.generics

/-- The type parameters of members are those of their signatures. -/
lemma flatMap_generics (members : List Member) : members.flatMap Member.generics =
    (members.filterMap (·.signature?)).flatMap (·.typeParams) := by
  induction members with
  | nil => rfl
  | cons m rest ih =>
      cases hsig : m.signature? <;> simp [Member.generics, hsig, ih]

lemma Member.generics_of_signature? {m : Member} {sig : Signature} (h : m.signature? = some sig) :
    m.generics = sig.typeParams := by
  simp [generics, h]

section

variable {base : Session} {may : Failure → Prop} (hbase : base.Settled may)
include hbase

/-- A merged signature has the type parameters of all overloads. -/
lemma mergeSignatures_generics (first : Signature) (others : List Signature) :
    (mergeSignatures first others).Ensures base fun sig =>
      sig.typeParams ⊆ first.typeParams ++ others.flatMap (·.typeParams) := by
  refine .bind (.of_traced hbase (.mapM fun p _ => Slot.ofParam_traced false p)) fun slots _ => ?_
  refine .bind (.of_traced hbase (distinctTypes_traced _)) fun results _ => ?_
  refine .bind (.of_traced hbase (.foldlM _ fun merged sig _ => ?_)) fun merged _ => .pure ?_
  · refine .bind (Slots.foldIn_traced _ _) fun slots => ?_
    exact .bind (DistinctTypes.add_traced render_traced _ _ _) fun _ => .pure _
  · refine List.append_subset.mpr ⟨List.subset_append_left _ _, fun name hname => ?_⟩
    exact List.mem_append_right _ (mem_of_mem_distinct (List.mem_of_mem_filter hname))

lemma mergeGroup_generics (group : List Member) : (mergeGroup group).Ensures base
    fun merged => merged.effective.generics ⊆ group.flatMap Member.generics := by
  cases group with
  | nil => exact .get_bind fun _ _ => .throw _
  | cons first rest =>
      simp only [mergeGroup]
      split
      · rename_i key other more sig sigs hkey hsigs
        refine .bind (.pointAt _) fun _ _ => ?_
        refine .bind (mergeSignatures_generics hbase sig sigs) fun merged hmerged => ?_
        cases hkind : first.kind.withSignature? merged
          ((first :: other :: more).all isOptionalMethod) with
        | none => exact .throw _
        | some kind =>
            have heffective : Member.generics { first with kind } = merged.typeParams :=
              Member.generics_of_signature? (MemberKind.signature?_withSignature? hkind)
            refine .table_bind (.pure ?_)
            rw [flatMap_generics, hsigs]
            exact heffective ▸ hmerged
      · exact .pure fun name hname => List.mem_flatMap.mpr ⟨first, List.mem_cons_self, hname⟩

lemma mergeMembers_generics (members : List Member) : (mergeMembers members).Ensures base
    fun groups => ∀ group ∈ groups, group.effective.generics ⊆ members.flatMap Member.generics := by
  refine .forall_mapM fun group hgroup => (mergeGroup_generics hbase group).weaken fun merged h => ?_
  intro name hname
  obtain ⟨m, hm, hname⟩ := List.mem_flatMap.mp (h hname)
  exact List.mem_flatMap.mpr ⟨m, mem_of_mem_groupMembers hgroup hm, hname⟩

namespace HeaderSignature

lemma parts_generics (sig : Signature) (generics : List String) :
    (parts sig generics).Ensures base (·.generics = generics) := by
  refine .bind (.of_traced hbase (declaredType_traced _)) fun result _ => ?_
  refine .bind (.of_traced hbase (.mapM fun p _ => ?_)) fun params _ => .pure rfl
  exact .bind (declaredType_traced _) fun _ => .pure _

lemma of_generics (sig : Signature) : (of sig).Ensures base (·.generics = sig.typeParams) :=
  .inScope _ (parts_generics hbase sig sig.typeParams)

end HeaderSignature

/-! ### Members -/

omit hbase in
lemma propertyHeads_generics (modifier name type : String) (readonly : Bool) (docs : List String) :
    ∀ d ∈ propertyHeads modifier name type readonly docs, d.generics = [] := by
  unfold propertyHeads
  dsimp only
  split <;> cases readonly <;> simp [HeadedDecl.ofMember, HeadedDecl.generics, Header.generics]

omit hbase in
lemma methodHead_generics (modifier name : String) (sig : HeaderSignature) (docs : List String) :
    (methodHead modifier name sig docs).generics ⊆ sig.generics := by
  unfold methodHead
  split <;> simp [HeadedDecl.ofMember, HeadedDecl.generics, Header.generics]

/-- A member declares the type parameters of its signature. -/
lemma memberHeads_generics (className : LegalName .type) (group : MemberGroup) :
    (memberHeads className group).Ensures base fun decls =>
      ∀ d ∈ decls, d.generics ⊆ group.effective.generics := by
  refine .bind (.pointAt _) fun _ _ => ?_
  have heffective : ∀ sig, group.effective.signature? = some sig →
      group.effective.generics = sig.typeParams := fun _ => Member.generics_of_signature?
  unfold Member.signature? at heffective
  cases hkind : group.effective.kind with
  | property type optional readonly =>
      refine .bind (.of_traced hbase (declaredType_traced _)) fun text _ => .pure fun d hd => ?_
      rw [propertyHeads_generics _ _ _ _ _ d hd]
      exact List.nil_subset _
  | method sig optional =>
      rw [heffective sig (by rw [hkind]; rfl)]
      refine .bind (HeaderSignature.of_generics hbase sig) fun head hhead => .pure ?_
      exact List.forall_mem_singleton.mpr (hhead ▸ methodHead_generics ..)
  | call sig =>
      rw [heffective sig (by rw [hkind]; rfl)]
      refine .bind (HeaderSignature.of_generics hbase sig) fun head hhead => .pure ?_
      exact List.forall_mem_singleton.mpr (hhead ▸ List.Subset.refl _)
  | construct sig =>
      refine .bind (HeaderSignature.parts_generics hbase sig []) fun head _ => .pure ?_
      exact List.forall_mem_singleton.mpr (List.nil_subset _)
  | index sig =>
      refine .bind (HeaderSignature.parts_generics hbase sig []) fun head _ => .pure ?_
      exact List.forall_mem_cons.mpr ⟨List.nil_subset _,
        List.forall_mem_singleton.mpr (List.nil_subset _)⟩
  | nested id => exact .pure fun _ hd => by cases hd

/-! ### Symbols -/

section

variable {id : Nat} {symbol : Symbol} (hid : base.table.get? id = some symbol)
  (hkind : symbol.kind.isEmitted = true)
include hid hkind

lemma legalNameOf_ensures (role : NameRole) :
    (legalNameOf id role).Ensures base fun _ => True :=
  .bind (nameOf_ensures hbase hid hkind) fun _ _ => .pure trivial

omit hid hkind in
lemma functionHead_generics (name : Option (LegalName .value)) (group : MemberGroup) :
    (functionHead id symbol name group).Ensures base fun heads =>
      ∀ head ∈ heads, ∀ d ∈ head.decls, d.generics ⊆ group.effective.generics := by
  unfold functionHead
  cases hsig : group.effective.signature? with
  | none => exact .pure fun _ hhead => by cases hhead
  | some sig =>
      rw [Member.generics_of_signature? hsig]
      refine .bind (.pointAt _) fun _ _ => ?_
      refine .bind (HeaderSignature.of_generics hbase sig) fun text htext => ?_
      cases name with
      | none =>
          exact .pure (List.forall_mem_singleton.mpr
            (List.forall_mem_singleton.mpr (List.nil_subset _)))
      | some name =>
          exact .table_bind (.pure (List.forall_mem_singleton.mpr
            (List.forall_mem_singleton.mpr (htext ▸ List.Subset.refl _))))

lemma functionHeads_generics : (functionHeads id symbol).Ensures base fun heads =>
    ∀ head ∈ heads, ∀ d ∈ head.decls, d.generics ⊆ symbol.genericNames := by
  unfold functionHeads
  split_ifs
  · exact .bind (P := fun _ => False) (.throw _) fun _ h => h.elim
  · refine .bind (legalNameOf_ensures hbase hid hkind .value) fun name _ => ?_
    refine .bind (mergeMembers_generics hbase _) fun groups hgroups => ?_
    refine .bind (.forall_mapM fun group hgroup =>
      (functionHead_generics hbase name group).weaken fun heads hheads head hhead d hd =>
        List.Subset.trans (hheads head hhead d hd) (hgroups group hgroup)) fun parts hparts =>
          .pure fun head hhead d hd => ?_
    obtain ⟨part, hpart, hhead⟩ := List.mem_flatten.mp hhead
    exact List.Subset.trans (hparts part hpart head hhead d hd) (List.subset_append_right _ _)

lemma variableHeads_generics : (variableHeads id symbol).Ensures base fun heads =>
    ∀ head ∈ heads, ∀ d ∈ head.decls, d.generics ⊆ symbol.genericNames := by
  unfold variableHeads
  cases symbol.variableType? with
  | none => exact .throw _
  | some typed =>
      refine .bind (.of_traced hbase (declaredType_traced _)) fun type _ => ?_
      refine .bind (legalNameOf_ensures hbase hid hkind .value) fun name _ => ?_
      cases name with
      | none =>
          exact .pure (List.forall_mem_singleton.mpr
            (List.forall_mem_singleton.mpr (List.nil_subset _)))
      | some name =>
          refine .table_bind (.pure ?_)
          cases typed.2 <;>
            simp [HeadedItem.decls, HeadedDecl.ofFunction, HeadedDecl.generics, Header.generics]

lemma classHead_generics : (classHead id symbol).Ensures base fun head =>
    ∀ d ∈ head.decls, d.generics ⊆ symbol.genericNames := by
  refine .bind (legalNameOf_ensures hbase hid hkind .type) fun name _ => ?_
  cases name with
  | none => exact .pure (List.forall_mem_singleton.mpr (List.nil_subset _))
  | some name =>
      refine .inScope _ ?_
      refine .bind (.of_traced hbase (Heritage.of_traced symbol)) fun heritage _ => ?_
      refine .table_bind ?_
      refine .bind (mergeMembers_generics hbase _) fun groups hgroups => ?_
      refine .bind (.forall_mapM fun group hgroup =>
        (memberHeads_generics hbase name group).weaken fun decls hdecls d hd =>
          List.Subset.trans (hdecls d hd) (hgroups group hgroup)) fun members hmembers => .pure ?_
      refine List.forall_mem_cons.mpr ⟨List.subset_append_left _ _, fun d hd => ?_⟩
      obtain ⟨part, hpart, hd⟩ := List.mem_flatten.mp hd
      exact List.Subset.trans (hmembers part hpart d hd) (List.subset_append_right _ _)

omit hkind in
/-- **The type parameters that are declared for a symbol** are its own and those of its members. -/
theorem symbolHeads_generics : (symbolHeads id symbol).Ensures base fun heads =>
    ∀ head ∈ heads, ∀ d ∈ head.decls, d.generics ⊆ symbol.genericNames := by
  refine .bind (.pointAt _) fun _ _ => ?_
  cases hk : symbol.kind with
  | klass | interface | enum =>
      have hemitted : symbol.kind.isEmitted = true := by rw [hk]; rfl
      exact .bind (classHead_generics hbase hid hemitted) fun head hhead =>
        .pure (List.forall_mem_singleton.mpr hhead)
  | function => exact functionHeads_generics hbase hid (by rw [hk]; rfl)
  | «variable» => exact variableHeads_generics hbase hid (by rw [hk]; rfl)
  | «alias» | typeParameter | nameSpace => exact .pure fun _ hhead => by cases hhead

end

end

/-! ## Runs -/

/-- **What is written for a symbol**, in its parts.  Every declaration that is no stub has a header
whose names are legal in their roles; its type parameters are those of the symbol and its members. -/
structure Session.Declares (base : Session) (id : Nat) (symbol : Symbol)
    (heads : List HeadedItem) : Prop where
  written : ∃ s, base.SameNames s ∧ ((symbolHeads id symbol).exec s).1 = .ok heads
  legal : ∀ head ∈ heads, ∀ d ∈ head.decls, d.decl.kind ≠ .stub → ∃ header,
    d.header? = some header ∧ d.decl.header = header.text ∧
      (∀ n ∈ header.names, Identifier.validate n.1 n.2 = .usable) ∧
      header.generics ⊆ symbol.genericNames

/-- A declaration that is no stub has a header. -/
lemma HeadedDecl.exists_header {d : HeadedDecl} (h : d.decl.kind ≠ .stub) :
    ∃ header, d.header? = some header ∧ d.decl.header = header.text ∧
      header.generics = d.generics := by
  cases d with
  | stub text => exact absurd rfl h
  | declared kind header metadata docs => exact ⟨header, rfl, rfl, rfl⟩

/-- What is written for a symbol whose name is legal. -/
lemma symbolItems_declares {base : Session} {may : Failure → Prop} (hbase : base.Settled may)
    {id : Nat} {symbol : Symbol} (hid : base.table.get? id = some symbol)
    (hkind : symbol.kind ≠ .nameSpace)
    (hlegal : ∀ name, symbol.kind.isEmitted = true → base.flatName symbol = some name →
      Identifier.validate name symbol.kind.role = .usable) (inside : Nat → Work (List Item)) :
    (symbolItems inside id symbol).Ensures base fun items => ∃ heads,
      base.Declares id symbol heads ∧ items = heads.map HeadedItem.item := by
  intro s hs
  have herases := symbolHeads_erases hbase hid hkind hlegal inside s hs
  obtain ⟨hsame, hgenerics⟩ := symbolHeads_generics hbase hid s hs
  rw [herases]
  refine ⟨hsame, fun items hitems => ?_⟩
  cases hheads : ((symbolHeads id symbol).exec s).1 with
  | error failure =>
      rw [hheads] at hitems
      cases hitems
  | ok heads =>
      rw [hheads] at hitems
      refine ⟨heads, ⟨⟨s, hs, hheads⟩, fun head hhead d hd hstub => ?_⟩,
        (Except.ok.inj hitems).symm⟩
      obtain ⟨header, hheader, htext, heq⟩ := HeadedDecl.exists_header hstub
      exact ⟨header, hheader, htext, header.usable,
        heq ▸ hgenerics heads hheads head hhead d hd⟩

/-- **Names that are declared are legal.**  The name of a library has the form of an identifier and is
legal unless it is reserved.  A library that is not given up is made of what its symbols leave, in the
order of the walk through its files; in every declaration that is no stub the names of classes,
functions, variables, members and parameters are legal in their roles, and the names of type
parameters are those that the symbol or a member of it has in the source. -/
theorem generate_declares {files : List SourceFile} {programs : List Program}
    (options : GenerationOptions) (hread : files.mapM SourceFile.read = .ok programs)
    (hlength : files.length ≤ ambientFile) :
    let plan := planRun options.merge files programs
    ∃ session units, Session.prepare plan.table options plan.libraries = .ok session ∧
      generate files options = .ok units ∧
      List.Forall₂ (fun library unit =>
        Identifier.isIdentifier (libraryName library.name) = true ∧
        (Identifier.validate (libraryName library.name) .value = .usable ↔
          libraryName library.name ∉ Identifier.reservedWords) ∧
        (unit.failure = none → ∃ imports heads,
          unit.text = libraryText library.name imports (heads.map HeadedItem.item) ∧
          session.Lists session.Declares
            (library.files.flatMap fun f => plan.table.fileWalk f.file) heads))
        plan.libraries units := by
  intro plan
  obtain ⟨session, hprepare, hready⟩ := prepare_session plan.table options plan.libraries
  have hs := hready.settled_any
  have hrelates : ∀ library ∈ plan.libraries, ∀ f ∈ library.files, session.Relates
      (fun id symbol items => ∃ heads, session.Declares id symbol heads ∧
        items = heads.map HeadedItem.item) f.file := by
    intro library hlibrary f hf
    refine ⟨fun id s hid hkind => ⟨[], ⟨⟨session, .refl session, ?_⟩, fun _ h => by cases h⟩, rfl⟩,
      fun id s hid hfile hkind inside => symbolItems_declares hs hid hkind ?_ inside⟩
    · unfold symbolHeads
      rw [hkind]
      rfl
    · intro name hemitted hname
      rw [hready.table_eq] at hid
      have hexternal := collect_external _ hid (hfile ▸ planRun_file_ne hlength hlibrary hf)
      exact planRun_flatName_usable hprepare hready hid hemitted hexternal hname
  refine ⟨session, _, hprepare, generate_eq hread hprepare, ?_⟩
  refine (writeLibraries_lists hs plan.libraries 0 hrelates (.refl session)).imp ?_
  intro library unit hunit
  obtain ⟨hform, hreserved⟩ := libraryName_usable_iff library.name
  refine ⟨hform, hreserved, fun hfailure => ?_⟩
  obtain ⟨imports, items, hlists, htext⟩ := hunit hfailure
  obtain ⟨heads, hheads, rfl⟩ := hlists.exists_map
  rw [hready.table_eq] at hheads
  exact ⟨imports, heads, htext, hheads⟩

set_option maxRecDepth 2000 in
/-- A method and a parameter whose names are reserved are escaped. -/
theorem generate_declares_escaped :
    let file : SourceFile := ⟨"a", "interface B<T> \x7b class(is: T): T; \x7d"⟩
    let item : Item :=
      ⟨⟨.klass, "abstract class B<T>", ["@JS()", "@anonymous"], [], none, []⟩,
        [.ofMember "external T $class(T $is);" [scriptName "class"] []]⟩
    ∃ program session imports heads, [file].mapM SourceFile.read = .ok [program] ∧
      [file].length ≤ ambientFile ∧
      let plan := planRun none [file] [program]
      Session.prepare plan.table {} plan.libraries = .ok session ∧
      generate [file] {} = .ok [⟨"a", libraryText "a" [] [item], [], none⟩] ∧
      libraryText "a" [] [item] = libraryText "a" imports (heads.map HeadedItem.item) ∧
      session.Lists session.Declares (plan.table.fileWalk 0) heads := by
  intro file item
  let parameter : ParamNode := ⟨.name "is", some ⟨⟨27, 28⟩, .reference ["T"] []⟩, false, false, false⟩
  let method : MemberNode := .method ⟨17, 33⟩ (.identifier "class") .method false
    ⟨[], [parameter], none, some ⟨⟨31, 32⟩, .reference ["T"] []⟩⟩
  let program : Program :=
    ⟨[.declaration false (.interface ⟨⟨0, 35⟩, "B", [⟨"T", []⟩], [], [method]⟩)]⟩
  have hread : file.read = .ok program :=
    SourceFile.read_of_parse (by cbv) (by cbv) (by decide +kernel)
  have hreads := SourceFile.mapM_read_singleton hread
  have hstem : moduleStem file.path = "a" := (moduleStem_of_fileName (by cbv)).trans (by decide)
  have hgenerate : generate [file] {} = .ok [⟨"a", libraryText "a" [] [item], [], none⟩] :=
    generate_singleton hread hstem (by decide +kernel)
  have hlibraries : (planRun none [file] [program]).libraries = [⟨"a", [⟨"a", 0, []⟩]⟩] := by
    rw [planRun_eq, placeFiles_singleton file program hstem]
    decide +kernel
  obtain ⟨session, units, hprepare, hunits, hall⟩ :=
    generate_declares {} hreads (by decide : [file].length ≤ ambientFile)
  obtain rfl := Except.ok.inj (hunits.symm.trans hgenerate)
  have hlists := hlibraries ▸ hall
  obtain ⟨imports, heads, htext, hheads⟩ := (List.forall₂_cons.mp hlists).1.2.2 rfl
  exact ⟨program, session, imports, heads, hreads, by decide, hprepare, hgenerate, htext,
    by simpa using hheads⟩

set_option maxRecDepth 2000 in
/-- A type parameter that is called `get`, which may be no name of a type.  It is declared and used
as it is; the members, which may be called so, are not touched. -/
theorem generate_declares_get :
    let item : Item :=
      ⟨⟨.klass, "abstract class A<get>", ["@JS()", "@anonymous"], [], none, []⟩,
        [.ofMember "external get get x;" [] [], .ofMember "external set x(get value);" [] []]⟩
    generate [⟨"a", "interface A<get> \x7b x: get; \x7d"⟩] {} =
        .ok [⟨"a", libraryText "a" [] [item], [], none⟩] ∧
      Identifier.validate "get" .type = .escaped "$get" := by
  intro item
  refine ⟨?_, by decide +kernel⟩
  let file : SourceFile := ⟨"a", "interface A<get> \x7b x: get; \x7d"⟩
  let program : Program := ⟨[.declaration false (.interface ⟨⟨0, 28⟩, "A", [⟨"get", []⟩], [],
    [.property ⟨19, 26⟩ (.identifier "x") false false (some ⟨⟨22, 25⟩, .reference ["get"] []⟩)]⟩)]⟩
  have hread : file.read = .ok program :=
    SourceFile.read_of_parse (by cbv) (by cbv) (by decide +kernel)
  have hstem : moduleStem file.path = "a" := (moduleStem_of_fileName (by cbv)).trans (by decide)
  exact generate_singleton hread hstem (by decide +kernel)

end Interop
