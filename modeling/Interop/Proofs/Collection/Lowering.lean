import Interop.Collection.Lowering
import Interop.Proofs.TypeParameters

/-!
# What lowering gives account of

What has no counterpart in the type language is kept as it is written, and noted at its place.  So a
text that is kept in a type can be traced to a note, a note to a part of the syntax, and a type
parameter in a type to one that is declared around it.

* `Ty.raws`, `Member.rawsAll` — the texts that are kept in types.
* `Part`, `TypeNode.parts`, `MemberNode.parts` — the parts of the syntax that are lowered.
* `Lower.Gives` — what holds of the notes and the result of a computation, with its rules.
* `Account` — how texts, notes and type parameters are traced; `BodyAccount` is for members.
* **`TypeNode.lower_account`** — types; the lemmas around it are about signatures and members.
-/

namespace Interop

open Source

/-! ## Texts that are kept -/

mutual

/-- The texts that are kept in a type as they are written. -/
def Ty.raws : Ty → List String
  | .nominal _ args => Ty.rawsAll args
  | .function signature => signature.raws
  | .array element => element.raws
  | .tuple elements => Ty.rawsAll elements
  | .shape members => Member.rawsAll members
  | .union members => Ty.rawsAll members
  | .intersection members => Ty.rawsAll members
  | .raw text => [text]
  | .primitive _ | .alias _ | .param _ | .literal _ _ => []

/-- The texts that are kept in types. -/
def Ty.rawsAll : List Ty → List String
  | [] => []
  | ty :: tys => ty.raws ++ Ty.rawsAll tys

/-- The texts that are kept in a signature. -/
def Signature.raws : Signature → List String
  | ⟨_, params, result⟩ => Param.rawsAll params ++ result.raws

/-- The texts that are kept in the type of a parameter. -/
def Param.raws : Param → List String
  | ⟨_, type, _, _⟩ => type.raws

/-- The texts that are kept in the types of parameters. -/
def Param.rawsAll : List Param → List String
  | [] => []
  | p :: ps => p.raws ++ Param.rawsAll ps

/-- The texts that are kept in what a member is. -/
def MemberKind.raws : MemberKind → List String
  | .property type _ _ => type.raws
  | .method signature _ => signature.raws
  | .call signature => signature.raws
  | .construct signature => signature.raws
  | .index signature => signature.raws
  | .nested _ => []

/-- The texts that are kept in a member. -/
def Member.raws : Member → List String
  | ⟨_, kind, _, _⟩ => kind.raws

/-- The texts that are kept in members. -/
def Member.rawsAll : List Member → List String
  | [] => []
  | m :: ms => m.raws ++ Member.rawsAll ms

end

lemma Ty.rawsAll_append (tys uys : List Ty) :
    Ty.rawsAll (tys ++ uys) = Ty.rawsAll tys ++ Ty.rawsAll uys := by
  induction tys with
  | nil => rfl
  | cons ty tys ih => simp [Ty.rawsAll, ih]

lemma Ty.freeParamsAll_append (tys uys : List Ty) :
    Ty.freeParamsAll (tys ++ uys) = Ty.freeParamsAll tys ++ Ty.freeParamsAll uys := by
  induction tys with
  | nil => rfl
  | cons ty tys ih => simp [Ty.freeParamsAll, ih]

lemma Param.rawsAll_append (ps qs : List Param) :
    Param.rawsAll (ps ++ qs) = Param.rawsAll ps ++ Param.rawsAll qs := by
  induction ps with
  | nil => rfl
  | cons p ps ih => simp [Param.rawsAll, ih]

lemma Param.freeParamsAll_append (ps qs : List Param) :
    Param.freeParamsAll (ps ++ qs) = Param.freeParamsAll ps ++ Param.freeParamsAll qs := by
  induction ps with
  | nil => rfl
  | cons p ps ih => simp [Param.freeParamsAll, ih]

lemma Member.rawsAll_append (ms ns : List Member) :
    Member.rawsAll (ms ++ ns) = Member.rawsAll ms ++ Member.rawsAll ns := by
  induction ms with
  | nil => rfl
  | cons m ms ih => simp [Member.rawsAll, ih]

lemma Member.freeParamsAll_append (ms ns : List Member) :
    Member.freeParamsAll (ms ++ ns) = Member.freeParamsAll ms ++ Member.freeParamsAll ns := by
  induction ms with
  | nil => rfl
  | cons m ms ih => simp [Member.freeParamsAll, ih]

lemma Member.mem_freeParamsAll {name : String} : ∀ {ms : List Member},
    name ∈ Member.freeParamsAll ms ↔ ∃ m ∈ ms, name ∈ m.freeParams
  | [] => by simp [Member.freeParamsAll]
  | m :: ms => by simp [Member.freeParamsAll, @Member.mem_freeParamsAll name ms]

/-! ## Parts of the syntax -/

/-- A part of the syntax that is lowered. -/
inductive Part where
  /-- Something that has a place: a type, or an element of a body. -/
  | place (span : Span)
  /-- The elements of an interface or an object type. -/
  | body (members : List MemberNode)
  /-- A base type. -/
  | base (node : HeritageNode)

/-- The place of a part. -/
def Part.span? : Part → Option Span
  | .place span => some span
  | .body _ => none
  | .base node => some node.span

/-- Whether a dotted name is one of some type parameters. -/
def namesParam (typeParams : List String) : List String → Bool
  | [name] => typeParams.contains name
  | _ => false

namespace Source

namespace MemberNode

/-- The place of an element. -/
def span : MemberNode → Span
  | .property span .. | .method span .. | .call span _ | .construct span _ | .index span .. => span

/-- Whether an element has to have a name and has none that is known. -/
def isUnnamed : MemberNode → Bool
  | .property _ key _ _ _ | .method _ key _ _ _ => key.name?.isNone
  | .call .. | .construct .. | .index .. => false

end MemberNode

mutual

/-- The parts of a type that are lowered where some type parameters are declared. -/
def TypeNode.parts (typeParams : List String) : TypeNode → List Part
  | ⟨span, form⟩ => .place span :: form.parts typeParams

/-- The parts of a form of type.  The bounds of type parameters, statements about the types of
arguments and the parts of what has no counterpart are not looked at. -/
def TypeForm.parts (typeParams : List String) : TypeForm → List Part
  | .reference name args =>
    if namesParam typeParams name then [] else TypeNode.partsAll typeParams args
  | .array element => element.parts typeParams
  | .tuple elements => TypeNode.partsAll typeParams elements
  | .union members => TypeNode.partsAll typeParams members
  | .intersection members => TypeNode.partsAll typeParams members
  | .function signature => signature.parts typeParams
  | .shape members => .body members :: MemberNode.partsAll typeParams members
  | .readonly inner => inner.parts typeParams
  | .keyword _ | .this | .literal _ | .predicate _ | .unsupported _ _ => []

/-- The parts of types. -/
def TypeNode.partsAll (typeParams : List String) : List TypeNode → List Part
  | [] => []
  | node :: rest => node.parts typeParams ++ TypeNode.partsAll typeParams rest

/-- The parts of a type that may be left out. -/
def TypeNode.partsOption (typeParams : List String) : Option TypeNode → List Part
  | none => []
  | some node => node.parts typeParams

/-- The parts of a signature. -/
def SignatureNode.parts (typeParams : List String) : SignatureNode → List Part
  | ⟨names, params, rest, result⟩ =>
    let typeParams := names.map (·.name) ++ typeParams
    ParamNode.partsAll typeParams params ++ (ParamNode.partsRest typeParams rest ++
      TypeNode.partsOption typeParams result)

/-- The parts of parameters. -/
def ParamNode.partsAll (typeParams : List String) : List ParamNode → List Part
  | [] => []
  | ⟨_, type, _, _, _⟩ :: more =>
    TypeNode.partsOption typeParams type ++ ParamNode.partsAll typeParams more

/-- The parts of a rest parameter. -/
def ParamNode.partsRest (typeParams : List String) : Option ParamNode → List Part
  | none => []
  | some ⟨_, type, _, _, _⟩ => TypeNode.partsOption typeParams type

/-- The parts of the first of some parameters. -/
def ParamNode.partsFirst (typeParams : List String) : List ParamNode → List Part
  | [] => []
  | ⟨_, type, _, _, _⟩ :: _ => TypeNode.partsOption typeParams type

/-- The parts of what a getter gives, or a setter takes. -/
def SignatureNode.accessorParts (typeParams : List String) (isSetter : Bool) :
    SignatureNode → List Part
  | ⟨_, params, _, result⟩ =>
    if isSetter then ParamNode.partsFirst typeParams params
    else TypeNode.partsOption typeParams result

/-- The parts of an element of an interface or an object type. -/
def MemberNode.parts (typeParams : List String) : MemberNode → List Part
  | .property span key _ _ type => .place span ::
      if key.name?.isSome then TypeNode.partsOption typeParams type else []
  | .method span key kind _ signature => .place span ::
      if key.name?.isSome then
        match kind with
        | .method => signature.parts typeParams
        | .getter => signature.accessorParts typeParams false
        | .setter => signature.accessorParts typeParams true
      else []
  | .call span signature => .place span :: signature.parts typeParams
  | .construct span signature => .place span :: signature.parts typeParams
  | .index span _ _ key value => .place span :: (key.parts typeParams ++ value.parts typeParams)

/-- The parts of elements. -/
def MemberNode.partsAll (typeParams : List String) : List MemberNode → List Part
  | [] => []
  | m :: rest => m.parts typeParams ++ MemberNode.partsAll typeParams rest

end

end Source

/-! ## Notes and results -/

/-- What holds of the notes that a computation adds, and of its result. -/
def Lower.Gives {α : Type} (scope : LoweringScope) (w : Lower α)
    (Q : List Diagnostic → α → Prop) : Prop :=
  ∀ before, ∃ notes, ((w scope).run before).2 = before ++ notes ∧
    Q notes ((w scope).run before).1

namespace Lower.Gives

variable {α β : Type} {scope : LoweringScope}

lemma pure {Q : List Diagnostic → α → Prop} {a : α} (h : Q [] a) :
    Gives scope (Pure.pure a) Q :=
  fun before => ⟨[], (List.append_nil before).symm, h⟩

lemma bind {P : List Diagnostic → α → Prop} {Q : List Diagnostic → β → Prop} {w : Lower α}
    {k : α → Lower β} (hw : Gives scope w P)
    (hk : ∀ notes a, P notes a → Gives scope (k a) fun more b => Q (notes ++ more) b) :
    Gives scope (w >>= k) Q := by
  intro before
  obtain ⟨notes, hnotes, ha⟩ := hw before
  obtain ⟨more, hmore, hb⟩ := hk notes _ ha (before ++ notes)
  have hrun : ((w >>= k) scope).run before =
      (k ((w scope).run before).1 scope).run ((w scope).run before).2 := rfl
  rw [hrun, hnotes]
  exact ⟨notes ++ more, by rw [hmore, List.append_assoc], hb⟩

lemma map {P : List Diagnostic → α → Prop} {Q : List Diagnostic → β → Prop} {w : Lower α}
    {f : α → β} (hw : Gives scope w P) (h : ∀ notes a, P notes a → Q notes (f a)) :
    Gives scope (w >>= fun a => Pure.pure (f a)) Q :=
  bind hw fun notes a ha => pure (by rw [List.append_nil]; exact h notes a ha)

lemma weaken {P Q : List Diagnostic → α → Prop} {w : Lower α} (hw : Gives scope w P)
    (h : ∀ notes a, P notes a → Q notes a) : Gives scope w Q := by
  intro before
  obtain ⟨notes, hnotes, ha⟩ := hw before
  exact ⟨notes, hnotes, h _ _ ha⟩

lemma read_bind {Q : List Diagnostic → α → Prop} {k : LoweringScope → Lower α}
    (hk : Gives scope (k scope) Q) : Gives scope (read >>= k) Q :=
  hk

lemma note_bind {Q : List Diagnostic → α → Prop} {d : Diagnostic} {k : Unit → Lower α}
    (hk : Gives scope (k ()) fun notes a => Q (d :: notes) a) :
    Gives scope (Lower.note d >>= k) Q := by
  intro before
  obtain ⟨notes, hnotes, ha⟩ := hk (before ++ [d])
  exact ⟨d :: notes, hnotes.trans (by rw [List.append_assoc, List.singleton_append]), ha⟩

lemma declaring {Q : List Diagnostic → α → Prop} {names : List String} {w : Lower α}
    (hw : Gives { scope with typeParams := names ++ scope.typeParams } w Q) :
    Gives scope (Lower.declaring names w) Q :=
  hw

end Lower.Gives

/-! ## Accounts -/

/-- **How the lowering of some parts is traced.**  A text that is kept is noted at a place where it
is written, unless it is a base that is not a name.  A note points to one of the parts.  A type
parameter is declared around them.  An element without a name that is known is noted. -/
structure Account (source : String) (typeParams : List String) (parts : List Part)
    (notes : List Diagnostic) (raws free : List String) : Prop where
  raws : ∀ text ∈ raws, (∃ note ∈ notes, note.span.slice source = text) ∨
    ∃ base, .base base ∈ parts ∧ base.name = none ∧ base.span.slice source = text
  places : ∀ note ∈ notes, ∃ part ∈ parts, part.span? = some note.span
  free : ∀ name ∈ free, name ∈ typeParams
  bodies : ∀ members, .body members ∈ parts → ∀ m ∈ members, m.isUnnamed = true →
    ∃ note ∈ notes, note.span = m.span

namespace Account

variable {source : String} {typeParams : List String} {parts parts' : List Part}
  {notes notes' : List Diagnostic} {raws raws' free free' : List String}

/-- Where nothing is looked at. -/
lemma nil : Account source typeParams [] [] [] [] :=
  ⟨by simp, by simp, by simp, by simp⟩

/-- One part after another. -/
lemma append (h : Account source typeParams parts notes raws free)
    (h' : Account source typeParams parts' notes' raws' free') :
    Account source typeParams (parts ++ parts') (notes ++ notes') (raws ++ raws')
      (free ++ free') where
  raws text htext := by
    have hparts : ∀ base : HeritageNode, Part.base base ∈ parts ∨ Part.base base ∈ parts' →
        Part.base base ∈ parts ++ parts' := fun _ => List.mem_append.mpr
    rcases List.mem_append.mp htext with htext | htext
    · refine (h.raws text htext).imp ?_ ?_
      · exact fun ⟨note, hnote, he⟩ => ⟨note, List.mem_append_left _ hnote, he⟩
      · exact fun ⟨base, hbase, he⟩ => ⟨base, hparts _ (.inl hbase), he⟩
    · refine (h'.raws text htext).imp ?_ ?_
      · exact fun ⟨note, hnote, he⟩ => ⟨note, List.mem_append_right _ hnote, he⟩
      · exact fun ⟨base, hbase, he⟩ => ⟨base, hparts _ (.inr hbase), he⟩
  places note hnote := by
    rcases List.mem_append.mp hnote with hnote | hnote
    · obtain ⟨part, hpart, he⟩ := h.places note hnote
      exact ⟨part, List.mem_append_left _ hpart, he⟩
    · obtain ⟨part, hpart, he⟩ := h'.places note hnote
      exact ⟨part, List.mem_append_right _ hpart, he⟩
  free name hname := (List.mem_append.mp hname).elim (h.free name) (h'.free name)
  bodies members hmembers m hm hunnamed := by
    rcases List.mem_append.mp hmembers with hmembers | hmembers
    · obtain ⟨note, hnote, he⟩ := h.bodies members hmembers m hm hunnamed
      exact ⟨note, List.mem_append_left _ hnote, he⟩
    · obtain ⟨note, hnote, he⟩ := h'.bodies members hmembers m hm hunnamed
      exact ⟨note, List.mem_append_right _ hnote, he⟩

/-- Some of what is lowered may be dropped. -/
lemma drop (h : Account source typeParams parts notes raws free) (hraws : raws' ⊆ raws)
    (hfree : free' ⊆ free) : Account source typeParams parts notes raws' free' :=
  { h with
    raws := fun text htext => h.raws text (hraws htext)
    free := fun name hname => h.free name (hfree hname) }

/-- A body all of whose unnamed elements are noted. -/
lemma body (h : Account source typeParams parts notes raws free) {members : List MemberNode}
    (hunnamed : ∀ m ∈ members, m.isUnnamed = true → ∃ note ∈ notes, note.span = m.span) :
    Account source typeParams (.body members :: parts) notes raws free where
  raws text htext := (h.raws text htext).imp_right fun ⟨base, hbase, he⟩ =>
    ⟨base, List.mem_cons_of_mem _ hbase, he⟩
  places note hnote := by
    obtain ⟨part, hpart, he⟩ := h.places note hnote
    exact ⟨part, List.mem_cons_of_mem _ hpart, he⟩
  free := h.free
  bodies others hothers := by
    rcases List.mem_cons.mp hothers with hothers | hothers
    · obtain rfl := Part.body.inj hothers
      exact hunnamed
    · exact h.bodies others hothers

/-- A part that is not a body, where nothing is noted. -/
lemma part {part : Part} (hpart : ∀ members, part ≠ .body members) :
    Account source typeParams [part] [] [] [] :=
  ⟨by simp, by simp, by simp, fun members hmembers =>
    absurd (List.mem_singleton.mp hmembers).symm (hpart members)⟩

/-- Type parameters that are declared may be mentioned. -/
lemma mentioning (h : Account source typeParams parts notes raws free)
    (hfree : ∀ name ∈ free', name ∈ typeParams) :
    Account source typeParams parts notes raws free' :=
  { h with free := hfree }

/-- Parts with a place around them. -/
lemma inside (h : Account source typeParams parts notes raws free) (span : Span) :
    Account source typeParams (.place span :: parts) notes raws free :=
  (Account.part (by simp)).append h

/-- One more note at the place of a part. -/
lemma note (h : Account source typeParams parts notes raws free) (note : Diagnostic)
    (hspan : ∃ part ∈ parts, part.span? = some note.span) :
    Account source typeParams parts (notes ++ [note]) raws free where
  raws text htext := (h.raws text htext).imp_left fun ⟨other, hother, he⟩ =>
    ⟨other, List.mem_append_left _ hother, he⟩
  places other hother := by
    rcases List.mem_append.mp hother with hother | hother
    · exact h.places other hother
    · rwa [List.mem_singleton.mp hother]
  free := h.free
  bodies members hmembers m hm hunnamed := by
    obtain ⟨other, hother, he⟩ := h.bodies members hmembers m hm hunnamed
    exact ⟨other, List.mem_append_left _ hother, he⟩

/-- A type that is kept as it is written, and noted. -/
lemma kept (h : Account source typeParams parts notes raws free) (note : Diagnostic)
    (hspan : ∃ part ∈ parts, part.span? = some note.span) :
    Account source typeParams parts (notes ++ [note]) [note.span.slice source] [] :=
  { h.note note hspan with
    raws := fun text htext => .inl ⟨note, by simp, (List.mem_singleton.mp htext).symm⟩
    free := by simp }

/-- What is lowered inside a signature: its own type parameters are not free in it. -/
lemma signature (names : List String) {params : List Param} {result : Ty}
    (h : Account source (names ++ typeParams) parts notes
      (Param.rawsAll params ++ result.raws) (Param.freeParamsAll params ++ result.freeParams)) :
    Account source typeParams parts notes (Signature.raws ⟨names, params, result⟩)
      (Signature.freeParams ⟨names, params, result⟩) where
  raws := h.raws
  places := h.places
  free name hname := by
    obtain ⟨hname, hnew⟩ := List.mem_filter.mp hname
    rcases List.mem_append.mp (h.free name hname) with hold | hold
    · simp [hold] at hnew
    · exact hold
  bodies := h.bodies

end Account

/-- **What is traced of the members of a body**, with the places of the members themselves. -/
structure BodyAccount (source : String) (typeParams : List String) (nodes : List MemberNode)
    (parts : List Part) (notes : List Diagnostic) (members : List Member) : Prop where
  types : Account source typeParams parts notes (Member.rawsAll members)
    (Member.freeParamsAll members)
  unnamed : ∀ m ∈ nodes, m.isUnnamed = true → ∃ note ∈ notes, note.span = m.span
  places : ∀ m ∈ members, .place m.span ∈ parts

namespace BodyAccount

variable {source : String} {typeParams : List String} {nodes : List MemberNode}
  {parts parts' : List Part} {notes notes' : List Diagnostic} {members : List Member}

lemma nil : BodyAccount source typeParams [] [] [] [] :=
  ⟨.nil, by simp, by simp⟩

/-- One more element, which gives a member at its place. -/
lemma add (h : BodyAccount source typeParams nodes parts notes members) (m : Member)
    (hm : Account source typeParams parts' notes' m.raws m.freeParams) :
    BodyAccount source typeParams nodes (parts ++ .place m.span :: parts') (notes ++ notes')
      (members ++ [m]) where
  types := by
    have htypes := h.types.append (hm.inside m.span)
    simpa [Member.rawsAll_append, Member.freeParamsAll_append, Member.rawsAll,
      Member.freeParamsAll] using htypes
  unnamed m hm hunnamed := by
    obtain ⟨note, hnote, he⟩ := h.unnamed m hm hunnamed
    exact ⟨note, List.mem_append_left _ hnote, he⟩
  places other hother := by
    rcases List.mem_append.mp hother with hother | hother
    · exact List.mem_append_left _ (h.places other hother)
    · rw [List.mem_singleton.mp hother]
      exact List.mem_append_right _ List.mem_cons_self

/-- Elements need not be followed any further. -/
lemma anonymous (h : BodyAccount source typeParams nodes parts notes members) :
    BodyAccount source typeParams [] parts notes members :=
  ⟨h.types, by simp, h.places⟩

/-- One more element that has a name, or needs none. -/
lemma named (h : BodyAccount source typeParams nodes parts notes members) {node : MemberNode}
    (hnamed : node.isUnnamed = false) :
    BodyAccount source typeParams (nodes ++ [node]) parts notes members where
  types := h.types
  unnamed m hm hunnamed := by
    rcases List.mem_append.mp hm with hm | hm
    · exact h.unnamed m hm hunnamed
    · rw [List.mem_singleton.mp hm, hnamed] at hunnamed
      cases hunnamed
  places := h.places

/-- One more element that has no name and is noted. -/
lemma noted (h : BodyAccount source typeParams nodes parts notes members) {node : MemberNode}
    {note : Diagnostic} (hspan : note.span = node.span) :
    BodyAccount source typeParams (nodes ++ [node]) (parts ++ [.place node.span])
      (notes ++ [note]) members where
  types := by
    have htypes := h.types.append (Account.nil.inside node.span)
    simp only [List.append_nil] at htypes
    exact htypes.note note ⟨.place node.span, by simp, by rw [hspan]; rfl⟩
  unnamed m hm hunnamed := by
    rcases List.mem_append.mp hm with hm | hm
    · obtain ⟨other, hother, he⟩ := h.unnamed m hm hunnamed
      exact ⟨other, List.mem_append_left _ hother, he⟩
    · exact ⟨note, by simp, by rw [hspan, List.mem_singleton.mp hm]⟩
  places m hm := List.mem_append_left _ (h.places m hm)

/-- One more element, which joins a member that is there. -/
lemma join (h : BodyAccount source typeParams nodes parts notes members) (span : Span)
    {raws free : List String} (hm : Account source typeParams parts' notes' raws free)
    {members' : List Member} (hraws : Member.rawsAll members' = Member.rawsAll members)
    (hfree : Member.freeParamsAll members' = Member.freeParamsAll members)
    (hspans : members'.map (·.span) = members.map (·.span)) :
    BodyAccount source typeParams nodes (parts ++ .place span :: parts') (notes ++ notes')
      members' where
  types := by
    have htypes := h.types.append (hm.inside span)
    rw [hraws, hfree]
    exact htypes.drop (List.subset_append_left _ _) (List.subset_append_left _ _)
  unnamed m hm hunnamed := by
    obtain ⟨note, hnote, he⟩ := h.unnamed m hm hunnamed
    exact ⟨note, List.mem_append_left _ hnote, he⟩
  places other hother := by
    have hspan : other.span ∈ members.map (·.span) := hspans ▸ List.mem_map_of_mem hother
    obtain ⟨m, hmem, he⟩ := List.mem_map.mp hspan
    exact List.mem_append_left _ (he ▸ h.places m hmem)

end BodyAccount

/-! ## Accessors -/

lemma writable_raws (m : Member) : (writable m).raws = m.raws := by
  obtain ⟨_, kind, _, _⟩ := m
  cases kind <;> rfl

lemma writable_freeParams (m : Member) : (writable m).freeParams = m.freeParams := by
  obtain ⟨_, kind, _, _⟩ := m
  cases kind <;> rfl

lemma writable_span (m : Member) : (writable m).span = m.span := by
  obtain ⟨_, kind, _, _⟩ := m
  cases kind <;> rfl

/-- Making a property writable changes neither its type nor its place. -/
lemma modifyFirst_writable (test : Member → Bool) : ∀ members : List Member,
    Member.rawsAll (modifyFirst test writable members) = Member.rawsAll members ∧
      Member.freeParamsAll (modifyFirst test writable members) = Member.freeParamsAll members ∧
      (modifyFirst test writable members).map (·.span) = members.map (·.span)
  | [] => ⟨rfl, rfl, rfl⟩
  | m :: rest => by
      obtain ⟨hraws, hfree, hspans⟩ := modifyFirst_writable test rest
      simp only [modifyFirst]
      split_ifs
      · refine ⟨congrArg (· ++ Member.rawsAll rest) (writable_raws m), ?_, ?_⟩
        · exact congrArg (· ++ Member.freeParamsAll rest) (writable_freeParams m)
        · exact congrArg (· :: rest.map (·.span)) (writable_span m)
      · refine ⟨congrArg (m.raws ++ ·) hraws, ?_, ?_⟩
        · exact congrArg (m.freeParams ++ ·) hfree
        · exact congrArg (m.span :: ·) hspans


/-- One more accessor. -/
lemma BodyAccount.accessor {source : String} {typeParams : List String} {nodes : List MemberNode}
    {parts parts' : List Part} {notes notes' : List Diagnostic} {members : List Member}
    (h : BodyAccount source typeParams nodes parts notes members) {ty : Ty}
    (hty : Account source typeParams parts' notes' ty.raws ty.freeParams) (name : String)
    (isSetter isStatic : Bool) (span : Span) :
    BodyAccount source typeParams nodes (parts ++ .place span :: parts') (notes ++ notes')
      (addAccessor name ty isSetter isStatic span members) := by
  unfold addAccessor
  split_ifs
  · obtain ⟨hraws, hfree, hspans⟩ := modifyFirst_writable (isPropertyOf name isStatic) members
    exact h.join span hty hraws hfree hspans
  · exact h.add ⟨some name, .property ty false (!isSetter), isStatic, span⟩ hty

/-! ## Names -/

/-- The type of the object itself keeps no text, and its type parameters are declared. -/
def LoweringScope.Sound (scope : LoweringScope) : Prop :=
  ∀ ty, scope.this = some ty → ty.raws = [] ∧ ∀ name ∈ ty.freeParams, name ∈ scope.typeParams

lemma LoweringScope.Sound.declaring {scope : LoweringScope} (h : scope.Sound)
    (names : List String) : { scope with typeParams := names ++ scope.typeParams }.Sound :=
  fun ty hty => ⟨(h ty hty).1, fun name hname =>
    List.mem_append_right _ ((h ty hty).2 name hname)⟩

lemma LoweringScope.isTypeParam_eq (scope : LoweringScope) (name : List String) :
    scope.isTypeParam name = namesParam scope.typeParams name := by
  rcases name with _ | ⟨_, _ | _⟩ <;> rfl

/-- A computation whose parts are traced. -/
def Lower.Traces {α : Type} (scope : LoweringScope) (parts : List Part) (w : Lower α)
    (raws free : α → List String) : Prop :=
  w.Gives scope fun notes a =>
    Account scope.source scope.typeParams parts notes (raws a) (free a)

section

variable {scope : LoweringScope}

/-- **A reference by name**: the arguments are part of the type, the first one alone is, or the
whole reference is kept and noted. -/
lemma lowerName_account (name : List String) {args : List Ty} {span : Span} {parts : List Part}
    {before : List Diagnostic} (hspan : ∃ part ∈ parts, part.span? = some span)
    (h : Account scope.source scope.typeParams parts before (Ty.rawsAll args)
      (Ty.freeParamsAll args)) :
    (lowerName name args span).Gives scope fun notes ty => Account scope.source scope.typeParams
      parts (before ++ notes) ty.raws ty.freeParams := by
  refine .read_bind ?_
  cases scope.lookupType name with
  | some id => exact .pure (by rwa [List.append_nil])
  | none =>
      dsimp only
      split_ifs
      · refine .pure ?_
        rw [List.append_nil]
        cases args with
        | nil => exact h
        | cons arg rest =>
            exact h.drop (List.subset_append_left _ _) (List.subset_append_left _ _)
      · exact .note_bind (.pure (h.kept _ hspan))

/-- A reference by name, which may be that of a type parameter. -/
lemma lowerReference_account {name : List String} {args : List TypeNode} {span : Span} {part : Part}
    (hspan : part.span? = some span) (hbody : ∀ members, part ≠ .body members)
    (hargs : Lower.Traces scope (TypeNode.partsAll scope.typeParams args) (TypeNode.lowerAll args)
      Ty.rawsAll Ty.freeParamsAll) :
    Lower.Traces scope (part :: if namesParam scope.typeParams name then []
        else TypeNode.partsAll scope.typeParams args)
      (lowerReference name args span) Ty.raws Ty.freeParams := by
  refine .read_bind ?_
  have hname : Lower.Traces scope (part :: TypeNode.partsAll scope.typeParams args)
      (do lowerName name (← TypeNode.lowerAll args) span) Ty.raws Ty.freeParams :=
    .bind hargs fun notes args h =>
      lowerName_account name ⟨part, List.mem_cons_self, hspan⟩ ((Account.part hbody).append h)
  rw [scope.isTypeParam_eq]
  cases hparam : namesParam scope.typeParams name with
  | false => rcases name with _ | ⟨_, _ | _⟩ <;> exact hname
  | true =>
      rcases name with _ | ⟨param, _ | _⟩
      · cases hparam
      · exact .pure ((Account.part hbody).mentioning (by
          simpa [Ty.freeParams, namesParam] using hparam))
      · cases hparam

/-- A type that has no counterpart is kept and noted. -/
lemma unsupported_account (span : Span) (construct : String) :
    Lower.Traces scope [.place span] (Lower.unsupported span construct) Ty.raws Ty.freeParams :=
  .note_bind <| .read_bind <| .pure <|
    (Account.nil.inside span).kept (.unsupported span construct) ⟨_, List.mem_cons_self, rfl⟩

end

/-! ## Types -/

mutual

/-- **Types are traced.** -/
lemma TypeNode.lower_account : ∀ (node : TypeNode) {scope : LoweringScope}, scope.Sound →
    Lower.Traces scope (node.parts scope.typeParams) node.lower Ty.raws Ty.freeParams
  | ⟨span, form⟩, _, h => TypeForm.lower_account span form h

lemma TypeForm.lower_account (span : Span) : ∀ (form : TypeForm) {scope : LoweringScope},
    scope.Sound → Lower.Traces scope (.place span :: form.parts scope.typeParams)
      (form.lower span) Ty.raws Ty.freeParams
  | .keyword _, _, _ => .pure (Account.nil.inside span)
  | .this, scope, h => .read_bind <| by
      cases hthis : scope.this with
      | none => exact unsupported_account _ _
      | some ty =>
          obtain ⟨hraws, hfree⟩ := h ty hthis
          refine .pure ?_
          rw [hraws]
          exact (Account.nil.inside span).mentioning hfree
  | .reference _ args, _, h =>
      lowerReference_account rfl (by simp) (TypeNode.lowerAll_account args h)
  | .array element, _, h => (TypeNode.lower_account element h).map fun _ _ h => h.inside span
  | .tuple elements, _, h => (TypeNode.lowerAll_account elements h).map fun _ _ h => h.inside span
  | .union members, _, h => (TypeNode.lowerAll_account members h).map fun _ _ h => h.inside span
  | .intersection members, _, h =>
      (TypeNode.lowerAll_account members h).map fun _ _ h => h.inside span
  | .function signature, _, h =>
      (SignatureNode.lower_account signature h).map fun _ _ h => h.inside span
  | .shape members, _, h => (MemberNode.lowerAllOnto_account members h .nil).map fun _ _ h =>
      (h.types.body h.unnamed).inside span
  | .literal _, _, _ => .read_bind (.pure (Account.nil.inside span))
  | .readonly inner, _, h => (TypeNode.lower_account inner h).weaken fun _ _ h => h.inside span
  | .predicate _, _, _ => .pure (Account.nil.inside span)
  | .unsupported _ _, _, _ => unsupported_account _ _

lemma TypeNode.lowerAll_account : ∀ (nodes : List TypeNode) {scope : LoweringScope}, scope.Sound →
    Lower.Traces scope (TypeNode.partsAll scope.typeParams nodes) (TypeNode.lowerAll nodes)
      Ty.rawsAll Ty.freeParamsAll
  | [], _, _ => .pure .nil
  | node :: rest, _, h => .bind (TypeNode.lower_account node h) fun _ _ hty =>
      (TypeNode.lowerAll_account rest h).map fun _ _ htys => hty.append htys

lemma TypeNode.lowerOption_account : ∀ (node : Option TypeNode) {scope : LoweringScope},
    scope.Sound → Lower.Traces scope (TypeNode.partsOption scope.typeParams node)
      (TypeNode.lowerOption node) Ty.raws Ty.freeParams
  | none, _, _ => .pure .nil
  | some node, _, h => TypeNode.lower_account node h

lemma SignatureNode.lower_account : ∀ (node : SignatureNode) {scope : LoweringScope},
    scope.Sound → Lower.Traces scope (node.parts scope.typeParams) node.lower
      Signature.raws Signature.freeParams
  | ⟨typeParams, params, rest, result⟩, scope, h => .declaring <|
      have hinner := h.declaring (typeParams.map (·.name))
      .bind (ParamNode.lowerAll_account 0 params hinner) fun _ params hparams =>
        .bind (ParamNode.lowerRest_account rest hinner) fun _ rest hrest =>
          (TypeNode.lowerOption_account result hinner).map fun _ result hresult => by
            refine Account.signature _ ?_
            rw [Param.rawsAll_append, Param.freeParamsAll_append, List.append_assoc,
              List.append_assoc]
            exact hparams.append (hrest.append hresult)

lemma ParamNode.lowerAll_account (index : Nat) : ∀ (nodes : List ParamNode)
    {scope : LoweringScope}, scope.Sound →
      Lower.Traces scope (ParamNode.partsAll scope.typeParams nodes)
        (ParamNode.lowerAll index nodes) Param.rawsAll Param.freeParamsAll
  | [], _, _ => .pure .nil
  | ⟨_, type, _, _, _⟩ :: more, _, h => .bind (TypeNode.lowerOption_account type h) fun _ _ hty =>
      (ParamNode.lowerAll_account (index + 1) more h).map fun _ _ hmore => hty.append hmore

lemma ParamNode.lowerRest_account : ∀ (node : Option ParamNode) {scope : LoweringScope},
    scope.Sound → Lower.Traces scope (ParamNode.partsRest scope.typeParams node)
      (ParamNode.lowerRest node) Param.rawsAll Param.freeParamsAll
  | none, _, _ => .pure .nil
  | some ⟨_, none, _, _, _⟩, _, _ => .pure .nil
  | some ⟨_, some type, _, _, _⟩, _, h => (TypeNode.lower_account type h).map fun _ ty hty =>
      hty.drop (by simp [Param.rawsAll, Param.raws])
        (by simp [Param.freeParamsAll, Param.freeParams])

lemma ParamNode.lowerFirst_account : ∀ (nodes : List ParamNode) {scope : LoweringScope},
    scope.Sound → Lower.Traces scope (ParamNode.partsFirst scope.typeParams nodes)
      (ParamNode.lowerFirst nodes) Ty.raws Ty.freeParams
  | [], _, _ => .pure .nil
  | ⟨_, type, _, _, _⟩ :: _, _, h => TypeNode.lowerOption_account type h

lemma SignatureNode.lowerAccessor_account (isSetter : Bool) : ∀ (node : SignatureNode)
    {scope : LoweringScope}, scope.Sound →
      Lower.Traces scope (node.accessorParts scope.typeParams isSetter)
        (node.lowerAccessor isSetter) Ty.raws Ty.freeParams
  | ⟨_, params, _, result⟩, _, h => by
      cases isSetter with
      | true => exact ParamNode.lowerFirst_account params h
      | false => exact TypeNode.lowerOption_account result h

lemma MemberNode.lowerOnto_account : ∀ (node : MemberNode) {scope : LoweringScope}, scope.Sound →
    ∀ {done : List MemberNode} {parts : List Part} {before : List Diagnostic}
      {members : List Member},
      BodyAccount scope.source scope.typeParams done parts before members →
        (node.lowerOnto members).Gives scope fun notes result =>
          BodyAccount scope.source scope.typeParams (done ++ [node])
            (parts ++ node.parts scope.typeParams) (before ++ notes) result
  | .property span key optional readonly type, _, h, _, _, _, _, hb => by
      simp only [MemberNode.lowerOnto, MemberNode.parts]
      cases hkey : key.name? with
      | none => exact .note_bind (.pure (hb.noted rfl))
      | some name =>
          have hnamed : (MemberNode.property span key optional readonly type).isUnnamed = false :=
            by simp [MemberNode.isUnnamed, hkey]
          exact (TypeNode.lowerOption_account type h).map fun _ _ hty =>
            (hb.add ⟨some name, .property _ optional readonly, false, span⟩ hty).named hnamed
  | .method span key kind optional signature, _, h, _, _, _, _, hb => by
      simp only [MemberNode.lowerOnto, MemberNode.parts]
      cases hkey : key.name? with
      | none => exact .note_bind (.pure (hb.noted rfl))
      | some name =>
          have hnamed : (MemberNode.method span key kind optional signature).isUnnamed = false := by
            simp [MemberNode.isUnnamed, hkey]
          cases kind with
          | method => exact (SignatureNode.lower_account signature h).map fun _ _ hsig =>
              (hb.add ⟨some name, .method _ optional, false, span⟩ hsig).named hnamed
          | getter =>
              exact (SignatureNode.lowerAccessor_account false signature h).map fun _ _ hty =>
                (hb.accessor hty name false false span).named hnamed
          | setter =>
              exact (SignatureNode.lowerAccessor_account true signature h).map fun _ _ hty =>
                (hb.accessor hty name true false span).named hnamed
  | .call span signature, _, h, _, _, _, _, hb =>
      (SignatureNode.lower_account signature h).map fun _ _ hsig =>
        (hb.add (.ofCall _ span) hsig).named rfl
  | .construct span signature, _, h, _, _, _, _, hb =>
      (SignatureNode.lower_account signature h).map fun _ _ hsig =>
        (hb.add ⟨none, .construct _, false, span⟩ hsig).named rfl
  | .index span isStatic keyName key value, _, h, _, _, _, _, hb =>
      .bind (TypeNode.lower_account key h) fun _ key hkey =>
        (TypeNode.lower_account value h).map fun _ value hvalue =>
          (hb.add ⟨none, .index ⟨[], [⟨keyName, key, false, false⟩], value⟩, isStatic, span⟩
            (Account.signature [] (by
              simpa [Param.rawsAll, Param.raws, Param.freeParamsAll, Param.freeParams] using
                hkey.append hvalue))).named rfl

lemma MemberNode.lowerAllOnto_account : ∀ (nodes : List MemberNode) {scope : LoweringScope},
    scope.Sound → ∀ {done : List MemberNode} {parts : List Part} {before : List Diagnostic}
      {members : List Member},
      BodyAccount scope.source scope.typeParams done parts before members →
        (MemberNode.lowerAllOnto members nodes).Gives scope fun notes result =>
          BodyAccount scope.source scope.typeParams (done ++ nodes)
            (parts ++ MemberNode.partsAll scope.typeParams nodes) (before ++ notes) result
  | [], _, _, _, _, _, _, hb => .pure (by simpa [MemberNode.partsAll] using hb)
  | node :: rest, _, h, _, _, _, _, hb =>
      .bind (MemberNode.lowerOnto_account node h hb) fun _ _ hb' =>
        (MemberNode.lowerAllOnto_account rest h hb').weaken fun _ _ hb'' => by
          simpa [MemberNode.partsAll, List.append_assoc] using hb''

end

end Interop
