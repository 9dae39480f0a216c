import Interop.Proofs.Libraries
import Interop.Proofs.Phrases.Citations

/-!
# What a library imports

A library imports what its declarations cite.  Members are grouped and overloads merged without
citing anything, since types are only compared there; what is rendered for a declaration afterwards
is cited.  All of that is also written, with one exception: the result type of a constructor is
rendered although the target does not declare one.

* `Draft.citations` — what is cited for a declaration.
* **`filesDrafts_cites`** — writing files cites what their drafts cite.
* **`planRun_imports`** — a library of a run imports another one exactly if a declaration in it
  mentions a symbol of that one, or the result type of a constructor does.
-/

namespace Interop

open Work

section

variable {base : Session} (hbase : base.Settled fun _ => True)
include hbase

/-! ## Merging cites nothing -/

lemma Slot.ofParam_silent (optional : Bool) (p : Param) : (Slot.ofParam optional p).Silent base :=
  .bind (distinctTypes_silent hbase _) fun _ => .pure _

lemma Slot.add_silent (slot : Slot) (p : Param) : (slot.add p).Silent base :=
  .bind (DistinctTypes.add_silent hbase _ _) fun _ => .pure _

lemma Slots.foldIn_silent : ∀ (slots : List Slot) (params : List Param),
    (Slots.foldIn slots params).Silent base
  | [], [] => .pure _
  | _ :: _, [] => .pure _
  | [], p :: ps => .bind (Slot.ofParam_silent hbase true p) fun _ =>
      .bind (Slots.foldIn_silent [] ps) fun _ => .pure _
  | slot :: slots, p :: ps => .bind (Slot.add_silent hbase slot p) fun _ =>
      .bind (Slots.foldIn_silent slots ps) fun _ => .pure _

lemma mergeSignatures_silent (first : Signature) (others : List Signature) :
    (mergeSignatures first others).Silent base := by
  refine .bind (.mapM fun p _ => Slot.ofParam_silent hbase false p) fun slots => ?_
  refine .bind (distinctTypes_silent hbase _) fun results => ?_
  refine .bind (.foldlM _ fun merged sig _ => ?_) fun merged => .pure _
  refine .bind (Slots.foldIn_silent hbase _ _) fun slots => ?_
  exact .bind (DistinctTypes.add_silent hbase _ _) fun _ => .pure _

lemma mergeGroup_silent (group : List Member) : (mergeGroup group).Silent base := by
  cases group with
  | nil => exact fun before => .get_bind fun _ => .throw _
  | cons first rest =>
      simp only [mergeGroup]
      split
      · refine .bind (.pointAt _) fun _ => .bind (mergeSignatures_silent hbase _ _) fun merged => ?_
        split
        · exact .throw _
        · exact fun before => .table_bind (.pure fun _ => Iff.rfl)
      · exact .pure _

lemma mergeMembers_silent (members : List Member) : (mergeMembers members).Silent base :=
  .mapM fun group _ => mergeGroup_silent hbase group

/-! ## Declarations cite what is rendered for them -/

variable {before : List Citation}

lemma phrasedType_cites (ty : Ty) :
    (phrasedType ty).Cites base before fun p => before ++ p.citations :=
  phrase_cites.withComment hbase ty {}

end

/-! ### Citations of declarations -/

/-- What a signature cites. -/
def SignaturePhrase.citations (sig : SignaturePhrase) : List Citation :=
  sig.result.citations ++ sig.params.citations

/-- What is cited for a declaration, whether it is written or not. -/
def Draft.citations (d : Draft) : List Citation :=
  d.header.citations ++ d.unwritten.citations

/-- What is cited for a declaration and for those in its body. -/
def DraftItem.citations (d : DraftItem) : List Citation :=
  d.drafts.flatMap Draft.citations

/-- What the base types of a class cite. -/
def HeritagePhrase.citations (h : HeritagePhrase) : List Citation :=
  (h.superclass.map Phrase.citations).getD [] ++ h.interfaces.flatMap Phrase.citations

lemma flatMap_flatten {α β : Type} (f : α → List β) (xss : List (List α)) :
    xss.flatten.flatMap f = xss.flatMap (List.flatMap f) := by
  rw [← List.flatMap_id, List.flatMap_assoc]
  rfl

section

variable {base : Session} (hbase : base.Settled fun _ => True) {before : List Citation}
include hbase

namespace SignaturePhrase

lemma parts_cites (sig : Signature) (generics : String) :
    (parts sig generics).Cites base before fun p => before ++ p.citations := by
  refine .bind (phrasedType_cites hbase _) fun result => ?_
  refine .bind (.mapM (c := fun p : Bool × Phrase => p.2.citations) fun before p _ => ?_)
    fun params => .pure (by simp [citations])
  exact .bind (phrasedType_cites hbase _) fun type => .pure (by simp)

lemma of_cites (sig : Signature) :
    (of sig).Cites base before fun p => before ++ p.citations :=
  .inScope _ (parts_cites hbase sig _)

end SignaturePhrase

end

/-! ### Members -/

@[simp] lemma citations_getterPhrase (modifier name : String) (type : Phrase) :
    (getterPhrase modifier type name).citations = type.citations := by
  simp [getterPhrase]

@[simp] lemma citations_setterPhrase (modifier name : String) (type : Phrase) :
    (setterPhrase modifier type name).citations = type.citations := by
  simp [setterPhrase]

@[simp] lemma citations_functionPhrase (modifier name : String) (sig : SignaturePhrase) :
    (functionPhrase modifier name sig).citations = sig.citations := by
  simp [functionPhrase, SignaturePhrase.citations]

/-- A property mentions its type in every declaration that it is given. -/
lemma mem_citations_propertyDrafts (modifier name : String) (type : Phrase) (readonly : Bool)
    (docs : List String) (citation : Citation) :
    citation ∈ (propertyDrafts modifier name type readonly docs).flatMap Draft.citations ↔
      citation ∈ type.citations := by
  unfold propertyDrafts
  cases Identifier.validate name .value <;> cases readonly <;>
    simp [Draft.citations, Draft.ofMember, Draft.ofStub]

lemma citations_methodDraft (modifier name : String) (sig : SignaturePhrase) (docs : List String) :
    (methodDraft modifier name sig docs).citations = sig.citations := by
  unfold methodDraft
  cases Identifier.validate name .value <;>
    simp [Draft.citations, Draft.ofMember, Draft.ofStub]

/-- A constructor cites its result too. -/
lemma mem_citations_constructorDraft (className : String) (sig : SignaturePhrase)
    (docs : List String) (citation : Citation) :
    citation ∈ (constructorDraft className sig docs).citations ↔ citation ∈ sig.citations := by
  simp [constructorDraft, Draft.citations, Draft.ofMember, SignaturePhrase.citations, or_comm]

/-- What is left out of the operator that writes stands in the one that reads. -/
lemma mem_citations_operatorDrafts (sig : SignaturePhrase) (docs : List String)
    (citation : Citation) :
    citation ∈ (operatorDrafts sig docs).flatMap Draft.citations ↔ citation ∈ sig.citations := by
  simp only [operatorDrafts, Draft.citations, Draft.ofMember, SignaturePhrase.citations,
    List.flatMap_cons, List.flatMap_nil, Phrase.citations_append, Phrase.citations_code,
    Phrase.citations_nil, List.mem_append, List.append_nil]
  tauto

section

variable {base : Session} (hbase : base.Settled fun _ => True) {before : List Citation}
include hbase

lemma memberDrafts_cites (className : String) (group : MemberGroup) :
    (memberDrafts className group).Cites base before
      fun drafts => before ++ drafts.flatMap Draft.citations := by
  refine .bind (Silent.pointAt _ before) fun _ => ?_
  dsimp only
  cases group.effective.kind with
  | property type optional readonly =>
      refine .bind (phrasedType_cites hbase _) fun type => .pure fun citation => ?_
      rw [List.mem_append, List.mem_append, mem_citations_propertyDrafts]
  | method sig optional =>
      refine .bind (SignaturePhrase.of_cites hbase sig) fun sig => .pure ?_
      simp [citations_methodDraft]
  | call sig =>
      refine .bind (SignaturePhrase.of_cites hbase sig) fun sig => .pure ?_
      simp [Draft.citations, Draft.ofMember]
  | construct sig =>
      refine .bind (SignaturePhrase.parts_cites hbase sig "") fun sig => .pure ?_
      simp [mem_citations_constructorDraft]
  | index sig =>
      refine .bind (SignaturePhrase.parts_cites hbase sig "") fun sig => .pure fun citation => ?_
      rw [List.mem_append, List.mem_append, mem_citations_operatorDrafts]
  | nested id => exact .pure (by simp)

/-! ### Functions and variables -/

lemma functionDraft_cites (id : Nat) (symbol : Symbol) (name : Option String)
    (group : MemberGroup) : (functionDraft id symbol name group).Cites base before
      fun items => before ++ items.flatMap DraftItem.citations := by
  unfold functionDraft
  cases group.effective.signature? with
  | none => exact .pure (by simp)
  | some sig =>
      refine .bind (Silent.pointAt _ before) fun _ => ?_
      refine .bind (SignaturePhrase.of_cites hbase sig) fun sig => ?_
      cases name with
      | none =>
          refine .pure ?_
          simp [DraftItem.citations, DraftItem.drafts, Draft.citations, Draft.ofStub]
      | some name =>
          refine .table_bind (.pure ?_)
          simp [DraftItem.citations, DraftItem.drafts, Draft.citations, Draft.ofFunction]

variable {id : Nat} {symbol : Symbol} (hid : base.table.get? id = some symbol)
  (hown : base.libraryOf? symbol.file = base.current)
include hid hown

lemma functionDrafts_cites (hkind : symbol.kind = .function) :
    (functionDrafts id symbol).Cites base before
      fun items => before ++ items.flatMap DraftItem.citations := by
  have hemitted : symbol.kind.isEmitted = true := by rw [hkind]; rfl
  have hrest : Work.Cites base before (do
      let name ← Work.nameOf id
      let groups ← mergeMembers symbol.members
      return (← groups.mapM (functionDraft id symbol name)).flatten)
        fun items => before ++ items.flatMap DraftItem.citations := by
    refine .bind (Silent.nameOf hbase hid hemitted hown before) fun name => ?_
    refine .bind (mergeMembers_silent hbase symbol.members before) fun groups => ?_
    refine .bind (.mapM (c := List.flatMap DraftItem.citations) fun before group _ =>
      functionDraft_cites hbase id symbol name group) fun items => .pure ?_
    simp [flatMap_flatten]
  unfold functionDrafts
  split_ifs
  · have hfails : ∀ failure, (throw failure : Work PUnit).Cites base before fun _ => before :=
      fun _ => .throw _
    exact .bind (hfails _) fun _ => hrest
  · exact hrest

lemma variableDrafts_cites (hkind : symbol.kind = .variable) :
    (variableDrafts id symbol).Cites base before
      fun items => before ++ items.flatMap DraftItem.citations := by
  have hemitted : symbol.kind.isEmitted = true := by rw [hkind]; rfl
  unfold variableDrafts
  cases symbol.variableType? with
  | none => exact .throw _
  | some typed =>
      obtain ⟨type, readonly⟩ := typed
      refine .bind (phrasedType_cites hbase type) fun type => ?_
      refine .bind (Silent.nameOf hbase hid hemitted hown _) fun name => ?_
      cases name with
      | none =>
          refine .pure ?_
          simp [DraftItem.citations, DraftItem.drafts, Draft.citations, Draft.ofStub]
      | some name =>
          refine .table_bind (.pure ?_)
          cases readonly <;>
            simp [DraftItem.citations, DraftItem.drafts, Draft.citations, Draft.ofFunction]

/-! ### Classes -/

omit hid hown

/-- Adding a base keeps those before it.  A superclass is only added where there is none yet. -/
lemma HeritagePhrase.add_cites (symbol : Symbol) (h : HeritagePhrase) (type : Ty) (index : Nat)
    (hfirst : index = 0 → h.superclass = none) :
    (h.add symbol type index).Cites base (before ++ h.citations) fun h => before ++ h.citations := by
  refine .table_bind ?_
  split_ifs with hbaseType hsuperclass
  · simp only [Bool.and_eq_true, beq_iff_eq] at hsuperclass
    refine .bind (phrasedType_cites hbase type) fun text => .pure ?_
    simp only [citations, hfirst hsuperclass.1.1, Option.map_none, Option.map_some,
      Option.getD_none, Option.getD_some, List.mem_append, List.nil_append]
    tauto
  · exact .bind (phrasedType_cites hbase type) fun text => .pure (by simp [citations])
  · exact .pure (by simp [citations])

lemma HeritagePhrase.of_cites (symbol : Symbol) :
    (HeritagePhrase.of symbol).Cites base before fun h => before ++ h.citations := by
  unfold HeritagePhrase.of
  cases symbol.bases with
  | nil => exact .pure (by simp [citations])
  | cons type rest =>
      have hfirst : (HeritagePhrase.add symbol {} type 0).Cites base
          (before ++ ({} : HeritagePhrase).citations) fun h => before ++ h.citations :=
        HeritagePhrase.add_cites hbase symbol {} type 0 fun _ => rfl
      rw [show before ++ ({} : HeritagePhrase).citations = before from List.append_nil before]
        at hfirst
      rw [List.zipIdx_cons, List.foldlM_cons]
      refine .bind hfirst fun h => ?_
      refine .foldlM (c := fun h : HeritagePhrase => before ++ h.citations) ?_
      rintro h ⟨other, index⟩ hentry
      refine HeritagePhrase.add_cites hbase symbol h other index fun hzero => ?_
      have hlater := List.le_snd_of_mem_zipIdx hentry
      omega

omit hbase in
lemma citations_classPhrase (symbol : Symbol) (name : String) (h : HeritagePhrase) :
    (classPhrase symbol name h).citations = h.citations := by
  obtain ⟨superclass, interfaces, notes⟩ := h
  cases superclass <;> cases interfaces <;> simp [classPhrase, HeritagePhrase.citations]

lemma classDraftBody_cites (id : Nat) (symbol : Symbol) (name : String) :
    (classDraftBody id symbol name).Cites base before fun item => before ++ item.citations := by
  refine .bind (HeritagePhrase.of_cites hbase symbol) fun heritage => .table_bind ?_
  refine .bind (mergeMembers_silent hbase symbol.members _) fun groups => ?_
  refine .bind (.mapM (c := List.flatMap Draft.citations) fun before group _ =>
    memberDrafts_cites hbase name group) fun members => .pure ?_
  simp [DraftItem.citations, DraftItem.drafts, Draft.citations, citations_classPhrase,
    flatMap_flatten]

lemma classDraft_cites {id : Nat} {symbol : Symbol} (hid : base.table.get? id = some symbol)
    (hown : base.libraryOf? symbol.file = base.current) (hkind : symbol.kind.isEmitted = true) :
    (classDraft id symbol).Cites base before fun item => before ++ item.citations := by
  refine .bind (Silent.nameOf hbase hid hkind hown before) fun name => ?_
  cases name with
  | none =>
      refine .pure ?_
      simp [DraftItem.citations, DraftItem.drafts, Draft.citations, Draft.ofStub]
  | some name => exact .inScope _ (classDraftBody_cites hbase id symbol name)

/-! ### Scopes and files -/

lemma symbolDrafts_cites {inside : Nat → Work (List DraftItem)}
    (hinside : ∀ inner, (inside inner).Cites base before
      fun items => before ++ items.flatMap DraftItem.citations) {id : Nat} {symbol : Symbol}
    (hid : base.table.get? id = some symbol) (hown : base.libraryOf? symbol.file = base.current) :
    (symbolDrafts inside id symbol).Cites base before
      fun items => before ++ items.flatMap DraftItem.citations := by
  refine .bind (Silent.pointAt _ before) fun _ => ?_
  cases hkind : symbol.kind with
  | nameSpace => exact hinside id
  | klass | interface | enum =>
      exact .bind (classDraft_cites hbase hid hown (by rw [hkind]; rfl)) fun item =>
        .pure (by simp)
  | function => exact functionDrafts_cites hbase hid hown hkind
  | «variable» => exact variableDrafts_cites hbase hid hown hkind
  | «alias» | typeParameter => exact .pure (by simp)

lemma scopeDrafts_cites {file : Nat} (hown : base.libraryOf? file = base.current) (levels : Nat) :
    ∀ (before : List Citation) (parent : Option Nat), (scopeDrafts levels file parent).Cites base
      before fun items => before ++ items.flatMap DraftItem.citations := by
  induction levels with
  | zero => exact fun before parent => .pure (by simp)
  | succ levels ih =>
      intro before parent
      refine .table_bind (.bind (.mapM (c := List.flatMap DraftItem.citations)
        fun before id hmem => ?_) fun items => .pure (by simp [flatMap_flatten]))
      obtain ⟨symbol, hid, hfile, -⟩ := SymbolTable.mem_children.mp hmem
      simp only [hid]
      exact symbolDrafts_cites hbase (fun inner => ih before (some inner)) hid (hfile ▸ hown)

lemma CollectedFile.drafts_cites (f : CollectedFile)
    (hown : base.libraryOf? f.file = base.current) :
    f.drafts.Cites base before fun items => before ++ items.flatMap DraftItem.citations :=
  .bind (Silent.forM (fun d _ => .report d) before) fun _ =>
    .table_bind (scopeDrafts_cites hbase hown _ before none)

/-- **Writing files cites what their drafts cite**, if all of them belong to the library that is
being written. -/
theorem filesDrafts_cites : ∀ {files : List CollectedFile} {before : List Citation},
    (∀ f ∈ files, base.libraryOf? f.file = base.current) →
      (filesDrafts files).Cites base before
        fun items => before ++ items.flatMap DraftItem.citations
  | [], _, _ => .pure (by simp)
  | f :: rest, before, hown => by
      refine .bind (f.drafts_cites hbase (hown f List.mem_cons_self)) fun items => ?_
      refine .bind (Silent.handedOver _) fun _ => ?_
      refine .bind (filesDrafts_cites fun g hg => hown g (List.mem_cons_of_mem _ hg)) fun more => ?_
      exact .pure (by simp)

end

/-! ## Imports of a run -/

namespace Session

lemma mem_importsOf {s : Session} {library other : Nat} :
    other ∈ s.importsOf library ↔ (library, other) ∈ s.imports := by
  simp [importsOf]

lemma nodup_importsOf {s : Session} (h : s.imports.Nodup) (library : Nat) :
    (s.importsOf library).Nodup := by
  refine (h.filter _).map_on fun edge hedge other hother hsame => Prod.ext ?_ hsame
  have hfirst := (List.mem_filter.mp hedge).2
  have hsecond := (List.mem_filter.mp hother).2
  simp only [beq_iff_eq] at hfirst hsecond
  rw [hfirst, hsecond]

/-- A phrase mentions a symbol of a library, by the name that it is declared under. -/
def Mentions (s : Session) (phrase : Phrase) (library : Nat) : Prop :=
  ∃ citation ∈ phrase.citations, s.Owns library citation

end Session

/-- **Imports of a run.**  A library that is not given up is put together from drafts of its
declarations.  It imports another library exactly if one of these declarations, members and stubs
included, mentions a symbol of that library, or what was rendered for it and left out does, as the
result type of a constructor is.  Every import is written once. -/
theorem planRun_imports (files : List SourceFile) (programs : List Source.Program)
    (options : GenerationOptions) :
    let plan := planRun options.merge files programs
    ∃ session, Session.prepare plan.table options plan.libraries = .ok session ∧
      ∀ i unit, ((writeLibraries 0 plan.libraries).run session).1[i]? = some unit →
        unit.failure = none → ∃ (library : LibraryPlan) (items : List DraftItem) (imports : List Nat),
          plan.libraries[i]? = some library ∧
          ((filesDrafts library.files).exec (session.enter i)).1 = .ok items ∧
          unit.text = libraryText library.name
            (imports.filterMap fun other => plan.libraries[other]?.map (·.name))
            (items.map DraftItem.item) ∧
          imports.Nodup ∧
          ∀ other, other ∈ imports ↔ other ≠ i ∧ ∃ draft ∈ items.flatMap DraftItem.drafts,
            session.Mentions draft.header other ∨ session.Mentions draft.unwritten other := by
  intro plan
  obtain ⟨session, hprepare, hready⟩ := prepare_session plan.table options plan.libraries
  refine ⟨session, hprepare, fun i unit hunit hkept => ?_⟩
  obtain ⟨library, written, hlibrary, -, hwritten, htext⟩ := hready.kept_library hunit hkept
  obtain ⟨hitems, hafter⟩ := filesItems_drafts library.files (session.enter i)
  rcases hdrafts : (filesDrafts library.files).exec (session.enter i) with ⟨failure | items, t⟩
  · rw [hitems, hdrafts] at hwritten
    cases hwritten
  rw [hitems, hdrafts] at hwritten
  obtain rfl := Except.ok.inj hwritten
  -- what it imports is what its drafts cite
  have hunused := prepare_unused hprepare
  have himports : (session.enter i).imports = [] := hunused.imports
  have hown : ∀ f ∈ library.files, (session.enter i).libraryOf? f.file = (session.enter i).current :=
    fun f hf => planRun_libraryOf hprepare hlibrary hf
  have hcited := filesDrafts_cites (hready.settled_any.enter i) hown (session.enter i)
    (.refl (session.enter i)) items t hdrafts
  have hlast : ((filesItems library.files).run (session.enter i)).2 = t := hafter items t hdrafts
  refine ⟨library, items, t.importsOf i, hlibrary, by rw [hdrafts], ?_, ?_, fun other => ?_⟩
  · have hnames : ∀ other, (t.library? other).map (·.name) = plan.libraries[other]?.map (·.name) := by
      intro other
      rw [Session.library?, hcited.names.libraries]
      exact planRun_library_name hprepare other
    rw [htext, hlast]
    simp only [Session.importNames, hnames]
  · exact Session.nodup_importsOf (hcited.nodup (himports ▸ List.nodup_nil)) i
  · rw [Session.mem_importsOf, hcited.imports]
    have hnone : (i, other) ∉ (session.enter i).imports := himports ▸ List.not_mem_nil
    rw [or_iff_right hnone]
    constructor
    · rintro ⟨-, -, hne, citation, hcitation, howns⟩
      obtain ⟨item, hitem, draft, hdraft, hmem⟩ :
          ∃ item ∈ items, ∃ draft ∈ item.drafts, citation ∈ draft.citations := by
        simpa [DraftItem.citations] using hcitation
      refine ⟨fun hsame => hne hsame.symm, draft, List.mem_flatMap.mpr ⟨item, hitem, hdraft⟩, ?_⟩
      exact (List.mem_append.mp hmem).imp (fun h => ⟨citation, h, howns⟩)
        fun h => ⟨citation, h, howns⟩
    · rintro ⟨hne, draft, hdraft, hmentions⟩
      obtain ⟨item, hitem, hdraft⟩ := List.mem_flatMap.mp hdraft
      have hcites : ∀ citation ∈ draft.citations,
          citation ∈ [] ++ items.flatMap DraftItem.citations := fun citation hcitation =>
        List.mem_flatMap.mpr ⟨item, hitem, List.mem_flatMap.mpr ⟨draft, hdraft, hcitation⟩⟩
      refine ⟨hunused.detachment, rfl, fun hsame => hne hsame.symm, ?_⟩
      rcases hmentions with ⟨citation, hcitation, howns⟩ | ⟨citation, hcitation, howns⟩
      · exact ⟨citation, hcites citation (List.mem_append_left _ hcitation), howns⟩
      · exact ⟨citation, hcites citation (List.mem_append_right _ hcitation), howns⟩

open Source in
set_option maxRecDepth 2000 in
/-- A constructor whose result is declared in another library.  That library is imported, although
nothing that is written mentions it. -/
theorem planRun_imports_constructor :
    let files : List SourceFile := [⟨"a", "interface A { new (): B; }"⟩, ⟨"b", "interface B {}"⟩]
    let text := "@JS()\nlibrary a;\n\nimport 'package:js/js.dart';\nimport 'b.dart';\n\n@JS()\n" ++
      "@anonymous\nabstract class A \x7b\n  external factory A();\n\x7d\n"
    let item : DraftItem :=
      ⟨⟨.klass, [.code "abstract class A"], ["@JS()", "@anonymous"], [], []⟩,
        [⟨.member, [.code "external factory A(", .code ");"], [], [], [.name 19 "B"]⟩]⟩
    ∃ programs session, files.mapM SourceFile.read = .ok programs ∧
      Session.prepare (planRun none files programs).table {}
        (planRun none files programs).libraries = .ok session ∧
      ((writeLibraries 0 (planRun none files programs).libraries).run session).1[0]?.map
        OutputLibrary.text = some text ∧
      (∃ library, (planRun none files programs).libraries[0]? = some library ∧
        ((filesDrafts library.files).exec (session.enter 0)).1 = .ok [item]) ∧
      (∀ draft ∈ item.drafts, draft.header.citations = []) ∧ session.Owns 1 (19, "B") := by
  intro files text item
  let first : Program := ⟨[.declaration false (.interface ⟨⟨0, 26⟩, "A", [], [],
    [.construct ⟨14, 24⟩ ⟨[], [], none, some ⟨⟨22, 23⟩, .reference ["B"] []⟩⟩]⟩)]⟩
  let second : Program := ⟨[.declaration false (.interface ⟨⟨0, 14⟩, "B", [], [], []⟩)]⟩
  have hread : files.mapM SourceFile.read = .ok [first, second] := by
    have hfirst : SourceFile.read ⟨"a", "interface A { new (): B; }"⟩ = .ok first :=
      SourceFile.read_of_parse (by cbv) (by cbv) (by decide +kernel)
    have hsecond : SourceFile.read ⟨"b", "interface B {}"⟩ = .ok second :=
      SourceFile.read_of_parse (by cbv) (by cbv) (by decide +kernel)
    simp only [files, List.mapM_cons, List.mapM_nil, hfirst, hsecond]
    rfl
  have hnames : moduleNames ["a", "b"] = ["a", "b"] := by
    have hfiles : fileName "a" = "a" ∧ fileName "b" = "b" := ⟨by cbv, by cbv⟩
    refine moduleNames_of_stems ?_ (by simp)
    simp only [List.map_cons, List.map_nil, moduleStem, hfiles]
    decide
  let placed : List ReadFile := [
    ⟨"a", { file := 0, module := "a", source := "interface A { new (): B; }" }, first⟩,
    ⟨"b", { file := 1, module := "b", source := "interface B {}" }, second⟩]
  have hplan : planRun none files [first, second] = planPlaced none placed := by
    have hpaths : files.map (·.path) = ["a", "b"] := rfl
    rw [planRun_eq, placeFiles, hpaths, hnames]
    rfl
  have htext : (Session.prepare (planPlaced none placed).table {}
      (planPlaced none placed).libraries).toOption.map (fun session =>
        ((writeLibraries 0 (planPlaced none placed).libraries).run session).1[0]?.map
          OutputLibrary.text) = some (some text) := by
    decide +kernel
  have hdrafts : (Session.prepare (planPlaced none placed).table {}
      (planPlaced none placed).libraries).toOption.map (fun session =>
        (planPlaced none placed).libraries[0]?.map fun library =>
          ((filesDrafts library.files).exec (session.enter 0)).1.toOption) =
      some (some (some [item])) := by
    decide +kernel
  have howner : (Session.prepare (planPlaced none placed).table {}
      (planPlaced none placed).libraries).toOption.map (fun session =>
        ((planPlaced none placed).table.get? 19).map fun s =>
          (s.isNamed, session.libraryOf? s.file, session.flatName s)) =
      some (some (true, some 1, some "B")) := by
    decide +kernel
  obtain ⟨session, hprepare, hready⟩ := prepare_session (planPlaced none placed).table {}
    (planPlaced none placed).libraries
  rw [hprepare] at htext hdrafts howner
  simp only [Except.toOption, Option.map_some, Option.some.injEq, Option.map_eq_some_iff,
    Prod.mk.injEq] at htext hdrafts howner
  obtain ⟨library, hlibrary, hitems⟩ := hdrafts
  obtain ⟨s, hs, hnamed, hslibrary, hname⟩ := howner
  refine ⟨[first, second], session, hread, ?_⟩
  rw [hplan]
  refine ⟨hprepare, Option.map_eq_some_iff.mpr htext, ⟨library, hlibrary, ?_⟩, by decide, s, ?_,
    hnamed, hslibrary, hname⟩
  · rcases houtcome : ((filesDrafts library.files).exec (session.enter 0)).1 with failure | items
    · simp [houtcome] at hitems
    · simp only [houtcome, Option.some.injEq] at hitems
      rw [hitems]
  · rw [hready.table_eq]
    exact hs

end Interop
