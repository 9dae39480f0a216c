import Interop.Proofs.Collection.Elements
import Interop.Proofs.Collection.Sites

/-!
# What one declaration adds to its symbol

The definition of a declaration lowers its parts and adds the result to its symbol.  All that it
does is said once here: the texts, type parameters and notes that it adds are traced to its parts,
and no element of its body is lost.

* `HeritageNode.parts`, `ClassElement.parts`, `SimpleDeclaration.parts` — the parts of declarations.
* `Symbol.raws`, `Symbol.freeParams` — what is kept and mentioned in a symbol.
* `SimpleDeclaration.Fills` — how a symbol is changed by a declaration.
* **`Site.define_cases`** — a declaration fills its symbol in, has none, or follows overloads.
-/

namespace Interop

open Source

/-! ## Parts of declarations -/

namespace Source

/-- The parts of a base type. -/
def HeritageNode.parts (typeParams : List String) (node : HeritageNode) : List Part :=
  .base node ::
    match node.name with
    | none => []
    | some name =>
      if namesParam typeParams name then [] else TypeNode.partsAll typeParams node.args

/-- The parts of an element of a class.  What is left out has none. -/
def ClassElement.parts (typeParams : List String) : ClassElement → List Part
  | .method span key kind _ _ isPrivate f =>
    match isPrivate, key.name? with
    | false, some _ => .place span ::
      match kind with
      | .constructor => { f.signature with result := none }.parts typeParams
      | .method .method => f.signature.parts typeParams
      | .method .getter => f.signature.accessorParts typeParams false
      | .method .setter => f.signature.accessorParts typeParams true
    | _, _ => []
  | .property span key _ _ _ isPrivate type _ =>
    match isPrivate, key.name? with
    | false, some _ => .place span :: TypeNode.partsOption typeParams type
    | _, _ => []
  | .index m => m.parts typeParams
  | .accessor .. | .initializer _ => []

/-- The superclass of a class, as a base type. -/
def ClassNode.superclassNodes (node : ClassNode) : List HeritageNode :=
  node.superclass.toList.map fun e => ⟨e.span, e.dottedName?, node.superArgs⟩

end Source

namespace SimpleDeclaration

/-- The place of a declaration. -/
def span : SimpleDeclaration → Span
  | .interface node => node.span
  | .klass node => node.span
  | .alias node => node.span
  | .enum node => node.span
  | .function node => node.span
  | .variable _ node => node.span

/-- The parts of a declaration, below its own type parameters. -/
def innerParts (declaration : SimpleDeclaration) : List Part :=
  let typeParams := declaration.typeParams
  match declaration with
  | .interface node => (.body node.members :: MemberNode.partsAll typeParams node.members) ++
      node.bases.flatMap (HeritageNode.parts typeParams)
  | .klass node => node.elements.flatMap (ClassElement.parts typeParams) ++
      (node.superclassNodes.flatMap (HeritageNode.parts typeParams) ++
        node.interfaces.flatMap (HeritageNode.parts typeParams))
  | .alias node => node.body.parts typeParams
  | .enum node => node.members.map fun m => .place m.span
  | .function node => node.signature.parts typeParams
  | .variable _ node => TypeNode.partsOption typeParams node.type

/-- The parts of a declaration, itself among them. -/
def parts (declaration : SimpleDeclaration) : List Part :=
  .place declaration.span :: declaration.innerParts

/-- The marks of the elements in the body of a declaration. -/
def marks : SimpleDeclaration → List Mark
  | .interface node => node.members.filterMap (·.mark?)
  | .klass node => node.elements.filterMap (·.mark?)
  | .alias _ | .enum _ | .function _ | .variable .. => []

end SimpleDeclaration

/-! ## Bases and classes -/

section

variable {scope : LoweringScope}

/-- A base type is traced: to a note, or to a base that is not a name. -/
lemma lowerBase_account (h : scope.Sound) (node : HeritageNode) :
    Lower.Traces scope (node.parts scope.typeParams) (lowerBase node.name node.args node.span)
      Ty.raws Ty.freeParams := by
  unfold HeritageNode.parts
  cases hname : node.name with
  | some name =>
      exact lowerReference_account rfl (by simp) (TypeNode.lowerAll_account node.args h)
  | none =>
      refine .read_bind (.pure ⟨fun text htext => ?_, by simp, by simp [Ty.freeParams], by simp⟩)
      exact .inr ⟨node, List.mem_cons_self, hname, (List.mem_singleton.mp htext).symm⟩

lemma lowerHeritage_account (h : scope.Sound) : ∀ nodes : List HeritageNode,
    Lower.Traces scope (nodes.flatMap (HeritageNode.parts scope.typeParams)) (lowerHeritage nodes)
      Ty.rawsAll Ty.freeParamsAll
  | [] => .pure .nil
  | node :: rest => by
      unfold lowerHeritage
      rw [List.mapM_cons]
      exact .bind (lowerBase_account h node) fun _ _ hty =>
        (lowerHeritage_account h rest).map fun _ _ htys => hty.append htys

lemma lowerClassBases_account (h : scope.Sound) (node : ClassNode) :
    Lower.Traces scope (node.superclassNodes.flatMap (HeritageNode.parts scope.typeParams) ++
        node.interfaces.flatMap (HeritageNode.parts scope.typeParams))
      (lowerClassBases node) Ty.rawsAll Ty.freeParamsAll := by
  have hsuper := lowerHeritage_account h node.superclassNodes
  rw [lowerHeritage, ClassNode.superclassNodes, List.mapM_map] at hsuper
  refine .bind hsuper fun _ superclass hsuper => ?_
  refine (lowerHeritage_account h node.interfaces).map fun _ interfaces hinterfaces => ?_
  rw [Ty.rawsAll_append, Ty.freeParamsAll_append]
  exact hsuper.append hinterfaces

/-- The type of a constructor: its result is the type of the class. -/
lemma Account.construct {source : String} {typeParams : List String} {parts : List Part}
    {notes : List Diagnostic} {sig : Signature} {self : Ty}
    (h : Account source typeParams parts notes sig.raws sig.freeParams) (hraws : self.raws = [])
    (hfree : ∀ name ∈ self.freeParams, name ∈ typeParams) :
    Account source typeParams parts notes ({ sig with result := self } : Signature).raws
      ({ sig with result := self } : Signature).freeParams := by
  obtain ⟨names, params, result⟩ := sig
  have hparams : Account source typeParams parts notes
      (Signature.raws ⟨names, params, self⟩) (Signature.freeParams ⟨names, params, result⟩) :=
    h.drop (by simp [Signature.raws, hraws]) (List.Subset.refl _)
  refine hparams.mentioning fun name hname => ?_
  obtain ⟨hnew, hmentioned⟩ := Signature.mem_freeParams.mp hname
  rcases hmentioned with hparam | hself
  · exact h.free name (Signature.mem_freeParams.mpr ⟨hnew, .inl hparam⟩)
  · exact hfree name hself

/-- One more element of a class. -/
lemma lowerElementOnto_account (h : scope.Sound) {self : Ty} (hself : scope.this = some self)
    (element : ClassElement) {parts : List Part} {before : List Diagnostic}
    {members : List Member}
    (hb : BodyAccount scope.source scope.typeParams [] parts before members) :
    (lowerElementOnto self members element).Gives scope fun notes result =>
      BodyAccount scope.source scope.typeParams []
        (parts ++ element.parts scope.typeParams) (before ++ notes) result := by
  have hskip : (pure members : Lower (List Member)).Gives scope fun notes result =>
      BodyAccount scope.source scope.typeParams [] (parts ++ []) (before ++ notes) result :=
    .pure (by simpa using hb)
  cases element with
  | method span key kind isStatic optional isPrivate f =>
      simp only [lowerElementOnto, ClassElement.parts]
      cases isPrivate with
      | true => exact hskip
      | false =>
          cases key.name? with
          | none => exact hskip
          | some name =>
              cases kind with
              | constructor =>
                  obtain ⟨hraws, hfree⟩ := h self hself
                  exact (SignatureNode.lower_account _ h).map fun _ sig hsig =>
                    hb.add ⟨none, .construct { sig with result := self }, false, span⟩
                      (hsig.construct hraws hfree)
              | method kind =>
                  cases kind with
                  | method =>
                      exact (SignatureNode.lower_account _ h).map fun _ sig hsig =>
                        hb.add ⟨some name, .method sig optional, isStatic, span⟩ hsig
                  | getter =>
                      exact (SignatureNode.lowerAccessor_account false _ h).map fun _ _ hty =>
                        hb.accessor hty name false isStatic span
                  | setter =>
                      exact (SignatureNode.lowerAccessor_account true _ h).map fun _ _ hty =>
                        hb.accessor hty name true isStatic span
  | property span key isStatic optional readonly isPrivate type value =>
      simp only [lowerElementOnto, ClassElement.parts]
      cases isPrivate with
      | true => exact hskip
      | false =>
          cases key.name? with
          | none => exact hskip
          | some name =>
              exact (TypeNode.lowerOption_account type h).map fun _ ty hty =>
                hb.add ⟨some name, .property ty optional readonly, isStatic, span⟩ hty
  | index m => exact (MemberNode.lowerOnto_account m h hb).weaken fun _ _ hb' => hb'.anonymous
  | accessor => exact hskip
  | initializer => exact hskip

lemma lowerElements_account (h : scope.Sound) {self : Ty} (hself : scope.this = some self)
    (elements : List ClassElement) : (lowerElements self elements).Gives scope fun notes result =>
      BodyAccount scope.source scope.typeParams []
        (elements.flatMap (ClassElement.parts scope.typeParams)) notes result := by
  have hfold : ∀ (elements : List ClassElement) {parts : List Part} {before : List Diagnostic}
      {members : List Member},
      BodyAccount scope.source scope.typeParams [] parts before members →
        (elements.foldlM (lowerElementOnto self) members).Gives scope fun notes result =>
          BodyAccount scope.source scope.typeParams []
            (parts ++ elements.flatMap (ClassElement.parts scope.typeParams)) (before ++ notes)
            result := by
    intro elements
    induction elements with
    | nil => exact fun hb => .pure (by simpa using hb)
    | cons element rest ih =>
        intro parts before members hb
        rw [List.foldlM_cons]
        refine .bind (lowerElementOnto_account h hself element hb) fun _ _ hb' => ?_
        refine (ih hb').weaken fun _ _ hb'' => ?_
        simpa [List.append_assoc] using hb''
  exact hfold elements .nil

end

/-! ## Symbols -/

namespace Symbol

/-- The texts that are kept in the types of a symbol. -/
def raws (s : Symbol) : List String :=
  Member.rawsAll s.members ++ (Ty.rawsAll s.bases ++ Ty.rawsAll s.aliased.toList)

/-- The type parameters that the types of a symbol mention. -/
def freeParams (s : Symbol) : List String :=
  Member.freeParamsAll s.members ++
    (Ty.freeParamsAll s.bases ++ Ty.freeParamsAll s.aliased.toList)

end Symbol

/-- What a declaration adds to its symbol. -/
structure Addition where
  members : List Member := []
  bases : List Ty := []
  aliased : Option Ty := none

namespace Addition

/-- The texts that are kept in what is added. -/
def raws (a : Addition) : List String :=
  Member.rawsAll a.members ++ (Ty.rawsAll a.bases ++ Ty.rawsAll a.aliased.toList)

/-- The type parameters that are mentioned in what is added. -/
def freeParams (a : Addition) : List String :=
  Member.freeParamsAll a.members ++ (Ty.freeParamsAll a.bases ++ Ty.freeParamsAll a.aliased.toList)

/-- One symbol has the types of another and those that are added. -/
structure Extends (a : Addition) (s t : Symbol) : Prop where
  members : t.members = s.members ++ a.members
  bases : t.bases = s.bases ++ a.bases ∨ t.bases = a.bases ++ s.bases
  aliased : t.aliased = s.aliased ∨ t.aliased = a.aliased

variable {a : Addition} {s t : Symbol}

lemma Extends.raws (h : a.Extends s t) : t.raws ⊆ s.raws ++ a.raws := by
  intro text htext
  simp only [Symbol.raws, Addition.raws, h.members, Member.rawsAll_append, List.mem_append]
    at htext ⊢
  rcases h.bases with hbases | hbases <;> rcases h.aliased with haliased | haliased
  all_goals
    rw [hbases, haliased, Ty.rawsAll_append, List.mem_append] at htext
    tauto

lemma Extends.freeParams (h : a.Extends s t) : t.freeParams ⊆ s.freeParams ++ a.freeParams := by
  intro name hname
  simp only [Symbol.freeParams, Addition.freeParams, h.members, Member.freeParamsAll_append,
    List.mem_append] at hname ⊢
  rcases h.bases with hbases | hbases <;> rcases h.aliased with haliased | haliased
  all_goals
    rw [hbases, haliased, Ty.freeParamsAll_append, List.mem_append] at hname
    tauto

end Addition

/-- **How a declaration changes its symbol**, with the notes that it adds. -/
structure SimpleDeclaration.Fills (declaration : SimpleDeclaration) (source : String)
    (notes : List Diagnostic) (change : Symbol → Symbol) (a : Addition) : Prop where
  extend : ∀ s, a.Extends s (change s)
  /-- What is added is traced. -/
  account : Account source declaration.typeParams declaration.parts notes a.raws a.freeParams
  places : ∀ m ∈ a.members, .place m.span ∈ declaration.parts
  /-- No element of the body is lost. -/
  marks : ∀ mark ∈ declaration.marks, mark.In a.members
  /-- The type parameters are those of the declaration, or those that the symbol has. -/
  typeParams : ∀ s, (change s).typeParams = declaration.typeParams ∨
    ((change s).typeParams = s.typeParams ∧ (s.typeParams ≠ [] ∨ declaration.typeParams = []))

/-! ## Filling a symbol in -/

/-- A class or interface inside its own body keeps no text, and its type parameters are declared. -/
lemma selfType_sound (table : SymbolTable) (file : Nat) (source : String) (names : List String)
    (id : Nat) (typeParams : List String) : LoweringScope.Sound
      ⟨table, file, source, names, typeParams, some (selfType id typeParams)⟩ := by
  intro ty hty
  obtain rfl := Option.some.inj hty
  have hraws : ∀ names : List String, Ty.rawsAll (names.map .param) = [] := fun names => by
    induction names with
    | nil => rfl
    | cons name rest ih => exact ih
  refine ⟨hraws typeParams, fun name hname => ?_⟩
  obtain ⟨param, hparam, hname⟩ := Ty.mem_freeParamsAll.mp hname
  obtain ⟨other, hother, rfl⟩ := List.mem_map.mp hparam
  rwa [List.mem_singleton.mp hname]

/-- The symbol of a declaration is filled in. -/
def Filled (place : Place) (d : Definition) (id : Nat) (declaration : SimpleDeclaration)
    (result : Definition) : Prop :=
  ∃ notes change a, result = ⟨d.catalogue.modify id change, d.notes ++ notes⟩ ∧
    declaration.Fills place.source notes change a

section

variable {place : Place} {d : Definition} {id : Nat}

/-- What is lowered is added to a symbol. -/
lemma Filled.of_lower {α : Type} {declaration : SimpleDeclaration} {typeParams : List String}
    {this : Option Ty} {work : Lower α} {change : α → Symbol → Symbol} (addition : α → Addition)
    (hwork : work.Gives ⟨d.catalogue.table, place.file, place.source, place.names, typeParams, this⟩
      fun notes a => declaration.Fills place.source notes (change a) (addition a)) :
    Filled place d id declaration (d.lower place typeParams this id work change) := by
  obtain ⟨notes, hnotes, hfills⟩ := hwork []
  refine ⟨notes, _, _, ?_, hfills⟩
  rw [List.nil_append] at hnotes
  rw [← hnotes]
  rfl

/-- An interface adds its members and bases. -/
lemma defineInterface_filled (node : InterfaceNode) :
    Filled place d id (.interface node) (defineInterface place d id node) := by
  unfold defineInterface
  refine .of_lower (fun lowered => { members := lowered.1, bases := lowered.2 }) ?_
  have hsound := selfType_sound d.catalogue.table place.file place.source place.names id
    (node.typeParams.map (·.name))
  refine .bind ((MemberNode.lowerAllOnto_account node.members hsound .nil).and_yields
    (MemberNode.lowerAllOnto_marks _ node.members [])) fun _ members ⟨hmembers, hmarks⟩ => ?_
  refine (lowerHeritage_account hsound node.bases).map fun _ bases hbases => ?_
  have htypes := ((hmembers.types.body hmembers.unnamed).append hbases).inside node.span
  constructor
  case extend => exact fun s => ⟨rfl, .inl rfl, .inl rfl⟩
  case account =>
    exact htypes.drop (by simp [Addition.raws, Ty.rawsAll])
      (by simp [Addition.freeParams, Ty.freeParamsAll])
  case places =>
    intro m hm
    have hplace := List.mem_cons_of_mem (.body node.members) (hmembers.places m hm)
    exact List.mem_cons_of_mem _ (List.mem_append_left _ hplace)
  case marks =>
    intro mark hmark
    obtain ⟨element, helement, hmark⟩ := List.mem_filterMap.mp hmark
    exact hmarks.2 element helement mark hmark
  case typeParams =>
    intro s
    cases s.typeParams with
    | nil => exact .inl (by simp [SimpleDeclaration.typeParams])
    | cons name rest => exact .inr ⟨by simp, .inl (by simp)⟩

/-- A class adds its members and bases. -/
lemma defineClass_filled (node : ClassNode) :
    Filled place d id (.klass node) (defineClass place d id node) := by
  unfold defineClass
  refine .of_lower (fun lowered => { members := lowered.1, bases := lowered.2 }) ?_
  have hsound := selfType_sound d.catalogue.table place.file place.source place.names id
    (node.typeParams.map (·.name))
  refine .bind ((lowerElements_account hsound rfl node.elements).and_yields
    (lowerElements_marks _ _ node.elements)) fun _ members ⟨hmembers, hmarks⟩ => ?_
  refine (lowerClassBases_account hsound node).map fun _ bases hbases => ?_
  have htypes := (hmembers.types.append hbases).inside node.span
  constructor
  case extend =>
    intro s
    dsimp only
    split_ifs
    · exact ⟨rfl, .inr rfl, .inl rfl⟩
    · exact ⟨rfl, .inl rfl, .inl rfl⟩
  case account =>
    exact htypes.drop (by simp [Addition.raws, Ty.rawsAll])
      (by simp [Addition.freeParams, Ty.freeParamsAll])
  case places =>
    exact fun m hm => List.mem_cons_of_mem _ (List.mem_append_left _ (hmembers.places m hm))
  case marks =>
    intro mark hmark
    obtain ⟨element, helement, hmark⟩ := List.mem_filterMap.mp hmark
    exact hmarks element helement mark hmark
  case typeParams =>
    refine fun s => .inl ?_
    dsimp only
    split_ifs <;> rfl

/-- An alias stands for its body. -/
lemma defineAlias_filled (node : AliasNode) :
    Filled place d id (.alias node) (defineAlias place d id node) := by
  unfold defineAlias
  refine .of_lower (fun body => { aliased := some body }) ?_
  have hsound : LoweringScope.Sound ⟨d.catalogue.table, place.file, place.source, place.names,
      node.typeParams.map (·.name), none⟩ := nofun
  refine (TypeNode.lower_account node.body hsound).weaken fun _ body hbody => ?_
  constructor
  case extend => exact fun s => ⟨by simp, by simp, .inr rfl⟩
  case account =>
    exact (hbody.inside node.span).drop (by simp [Addition.raws, Ty.rawsAll, Member.rawsAll])
      (by simp [Addition.freeParams, Ty.freeParamsAll, Member.freeParamsAll])
  case places => simp
  case marks => simp [SimpleDeclaration.marks]
  case typeParams => exact fun s => .inl rfl

/-- A declaration that adds one member at its own place. -/
lemma SimpleDeclaration.Fills.of_member {declaration : SimpleDeclaration} {source : String}
    {notes : List Diagnostic} {m : Member} (hparams : declaration.typeParams = [])
    (hmarks : declaration.marks = []) (hspan : m.span = declaration.span)
    (hm : Account source [] declaration.innerParts notes m.raws m.freeParams) :
    declaration.Fills source notes (fun s => { s with members := s.members ++ [m] })
      { members := [m] } := by
  constructor
  case extend => exact fun s => ⟨rfl, by simp, .inl rfl⟩
  case account =>
    rw [hparams]
    exact (hm.inside declaration.span).drop (by simp [Addition.raws, Ty.rawsAll, Member.rawsAll])
      (by simp [Addition.freeParams, Ty.freeParamsAll, Member.freeParamsAll])
  case places =>
    intro other hother
    rw [List.mem_singleton.mp hother, hspan]
    exact List.mem_cons_self
  case marks => simp [hmarks]
  case typeParams => exact fun s => .inr ⟨rfl, .inr hparams⟩

/-- Values whose names are computed are noted at their places. -/
lemma enumNotes_account (source : String) (nodes : List EnumMemberNode) :
    Account source [] (nodes.map fun m => .place m.span)
      ((nodes.filter (·.name.isNone)).map fun m => .unsupported m.span "computed enum member")
      [] [] := by
  refine ⟨by simp, fun note hnote => ?_, by simp, fun members hmembers => ?_⟩
  · obtain ⟨m, hm, rfl⟩ := List.mem_map.mp hnote
    exact ⟨.place m.span, List.mem_map_of_mem (List.mem_filter.mp hm).1, rfl⟩
  · obtain ⟨m, -, hm⟩ := List.mem_map.mp hmembers
    cases hm

lemma enumValues_types : ∀ nodes : List EnumMemberNode,
    Member.rawsAll (enumValues nodes) = [] ∧ Member.freeParamsAll (enumValues nodes) = []
  | [] => ⟨rfl, rfl⟩
  | node :: rest => by
      unfold enumValues
      rw [List.filterMap_cons]
      cases node.name with
      | none => exact enumValues_types rest
      | some name => exact enumValues_types rest

/-- An enum adds its values. -/
lemma defineEnum_filled (node : EnumNode) :
    Filled place d id (.enum node) (defineEnum d id node) := by
  refine ⟨_, _, { members := enumValues node.members }, rfl, ?_⟩
  have hvalues := enumValues_types node.members
  constructor
  case extend => exact fun s => ⟨rfl, by simp, .inl rfl⟩
  case account =>
    exact ((enumNotes_account place.source node.members).inside node.span).drop
      (by simp [Addition.raws, Ty.rawsAll, hvalues])
      (by simp [Addition.freeParams, Ty.freeParamsAll, hvalues])
  case places =>
    intro m hm
    obtain ⟨value, hvalue, hm⟩ := List.mem_filterMap.mp hm
    obtain ⟨name, -, rfl⟩ := Option.map_eq_some_iff.mp hm
    exact List.mem_cons_of_mem _ (List.mem_map_of_mem hvalue)
  case marks => simp [SimpleDeclaration.marks]
  case typeParams => exact fun s => .inr ⟨rfl, .inr rfl⟩

/-- A function adds a call signature, unless it has a body and follows overloads. -/
lemma defineFunction_filled (node : FunctionNode) :
    Filled place d id (.function node) (defineFunction place d id node) ∨
      (defineFunction place d id node = d ∧ node.body.isSome = true ∧
        ∃ s, d.catalogue.table.get? id = some s ∧ s.members ≠ []) := by
  unfold defineFunction
  dsimp only
  split_ifs with hbody
  · refine .inr ⟨rfl, ?_⟩
    cases hid : d.catalogue.table.get? id with
    | none => simp [hid] at hbody
    | some s => simpa [hid] using hbody
  · have hsound : LoweringScope.Sound ⟨d.catalogue.table, place.file, place.source, place.names,
        [], none⟩ := nofun
    refine .inl (.of_lower (fun signature => { members := [.ofCall signature node.span] }) ?_)
    refine (SignatureNode.lower_account node.signature hsound).weaken fun _ signature hsig => ?_
    exact .of_member rfl rfl rfl hsig

/-- A variable adds its property. -/
lemma defineVariable_filled (kind : VariableKind) {name : String} (node : VariableNode) :
    Filled place d id (.variable kind node) (d.lower place [] none id
      (TypeNode.lowerOption node.type) fun type s => { s with members :=
        s.members ++ [⟨some name, .property type false (kind == .const), false, node.span⟩] }) := by
  have hsound : LoweringScope.Sound ⟨d.catalogue.table, place.file, place.source, place.names,
      [], none⟩ := nofun
  refine .of_lower (fun type => { members :=
    [⟨some name, .property type false (kind == .const), false, node.span⟩] }) ?_
  refine (TypeNode.lowerOption_account node.type hsound).weaken fun _ type hty => ?_
  exact .of_member rfl rfl rfl hty

/-! ## All declarations -/

/-- What a declaration does to the catalogue and the notes. -/
inductive Site.Defines (place : Place) (site : Site) (d : Definition) : Definition → Prop
  /-- Its symbol is filled in. -/
  | filled {id : Nat} {result : Definition}
      (hid : site.symbol? d.catalogue place.module = some id)
      (hresult : Filled place d id site.declaration result) : Defines place site d result
  /-- It has no symbol, which may be noted. -/
  | skipped {result : Definition} {notes : List Diagnostic}
      (hid : site.symbol? d.catalogue place.module = none)
      (hcatalogue : result.catalogue = d.catalogue) (hresult : result.notes = d.notes ++ notes)
      (hnotes : ∀ note ∈ notes, note.span = site.declaration.span) : Defines place site d result
  /-- It is the body of a function with overloads. -/
  | overloaded {id : Nat} {s : Symbol} {node : FunctionNode}
      (hid : site.symbol? d.catalogue place.module = some id)
      (hs : d.catalogue.table.get? id = some s) (hmembers : s.members ≠ [])
      (hnode : site.declaration = .function node) (hbody : node.body.isSome = true) :
      Defines place site d d

/-- The symbol of a declaration with a name is the one that is registered for it. -/
lemma Site.symbol?_eq (c : Catalogue) (place : Place) (names : List String)
    (declaration : SimpleDeclaration) :
    Site.symbol? ⟨names, declaration⟩ c place.module = declaration.name?.bind fun name =>
      c.find? ((Site.place ⟨names, declaration⟩ place).path name declaration.kind)
        declaration.kind := by
  unfold Site.symbol? Site.path?
  rw [Option.bind_map]
  rfl

lemma Site.Defines.of_named {names : List String} {declaration : SimpleDeclaration}
    {define : Nat → Definition}
    (hdefine : ∀ id, Site.symbol? ⟨names, declaration⟩ d.catalogue place.module = some id →
      Site.Defines place ⟨names, declaration⟩ d (define id)) :
    Site.Defines place ⟨names, declaration⟩ d
      (defineNamed (Site.place ⟨names, declaration⟩ place) d declaration.name? declaration.kind
        define) := by
  unfold defineNamed
  rw [← Site.symbol?_eq]
  cases hid : Site.symbol? ⟨names, declaration⟩ d.catalogue place.module with
  | some id => exact hdefine id hid
  | none => exact .skipped hid rfl (List.append_nil _).symm (by simp)

/-- **What a declaration does**: it fills its symbol in, it has none, or it is the body of a function
with overloads. -/
lemma Site.define_cases (place : Place) (d : Definition) (site : Site) :
    site.Defines place d (site.define place d) := by
  obtain ⟨names, declaration⟩ := site
  cases declaration with
  | interface node => exact .of_named fun id hid => .filled hid (defineInterface_filled node)
  | klass node => exact .of_named fun id hid => .filled hid (defineClass_filled node)
  | «alias» node => exact .of_named fun id hid => .filled hid (defineAlias_filled node)
  | enum node => exact .of_named fun id hid => .filled hid (defineEnum_filled node)
  | function node =>
      refine .of_named fun id hid => ?_
      have hfunction : Filled (Site.place ⟨names, .function node⟩ place) d id _ _ ∨ _ :=
        defineFunction_filled node
      rcases hfunction with hfilled | ⟨hsame, hbody, s, hs, hmembers⟩
      · exact .filled hid hfilled
      · rw [hsame]
        exact .overloaded hid hs hmembers rfl hbody
  | «variable» kind node =>
      have hsymbol := Site.symbol?_eq d.catalogue place names (.variable kind node)
      simp only [Site.define, defineVariable]
      cases hname : node.binding.name? with
      | none =>
          refine .skipped ?_ rfl rfl ?_
          · simp [hsymbol, SimpleDeclaration.name?, hname]
          · simp [Diagnostic.span, SimpleDeclaration.span]
      | some name =>
          simp only [SimpleDeclaration.name?, hname, Option.bind_some] at hsymbol
          dsimp only
          split
          · rename_i hid
            exact .skipped (hsymbol.trans hid) rfl (List.append_nil _).symm (by simp)
          · rename_i id hid
            exact .filled (hsymbol.trans hid) (defineVariable_filled kind node)

end

end Interop
