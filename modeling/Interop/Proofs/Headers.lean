import Interop.Proofs.Identifiers
import Interop.Proofs.Items
import Interop.Proofs.Phrases.Types

/-!
# Headers in their parts

The header of a declaration is one string, in which the names that it declares stand among the texts
of types.  This file writes the declarations of a symbol once more with their headers in parts.  A
name that is declared carries the proof that it is legal, so no header with another name can be put
together; names of type parameters are taken over as they stand in the source, and carry none.

* `LegalName` — a name with the proof that it is legal.
* `Header` — a header in its parts; `Header.names`, `Header.generics` — what it declares.
* `HeadedDecl`, `HeadedItem` — declarations whose headers are in parts, and stubs.
* `symbolHeads` — the declarations of a symbol.
* **`symbolHeads_erases`** — what the program writes for a symbol is what these are put together to,
  if the name that the symbol was given is legal.
-/

namespace Interop

open Work

/-! ## Headers -/

/-- A name that may stand as it is in a role. -/
structure LegalName (role : NameRole) where
  text : String
  usable : Identifier.validate text role = .usable

/-- A name, if it may stand as it is. -/
def LegalName.of? (name : String) (role : NameRole) : Option (LegalName role) :=
  if h : Identifier.validate name role = .usable then some ⟨name, h⟩ else none

lemma LegalName.of?_eq_some {name : String} {role : NameRole}
    (h : Identifier.validate name role = .usable) : of? name role = some ⟨name, h⟩ :=
  dif_pos h

/-- A parameter as it is declared. -/
structure HeaderParam where
  optional : Bool
  type : String
  name : LegalName .value

/-- The parameter put together, and whether it may be left out. -/
def HeaderParam.text (p : HeaderParam) : Bool × String :=
  (p.optional, p.type ++ " " ++ p.name.text)

/-- A signature as it is declared. -/
structure HeaderSignature where
  result : String
  generics : List String
  params : List HeaderParam

namespace HeaderSignature

/-- The signature put together. -/
def text (sig : HeaderSignature) : SignatureText :=
  ⟨sig.result, inAngles sig.generics, parameterList (sig.params.map HeaderParam.text)⟩

/-- The names of the parameters. -/
def names (sig : HeaderSignature) : List (String × NameRole) :=
  sig.params.map fun p => (p.name.text, .value)

/-- A parameter. -/
def param (p : Param) (index : Nat) : Work HeaderParam := do
  let type ← declaredType p.argumentType
  return ⟨p.optional || p.rest, type,
    ⟨SignatureText.paramName index p, SignatureText.paramName_usable index p⟩⟩

/-- A signature whose type parameters are in scope, if they are to be. -/
def parts (sig : Signature) (generics : List String) : Work HeaderSignature := do
  let result ← declaredType sig.result
  let params ← sig.params.zipIdx.mapM fun (p, index) => param p index
  return ⟨result, generics, params⟩

/-- A signature of a function that declares its own type parameters. -/
def of (sig : Signature) : Work HeaderSignature :=
  Work.inScope sig.typeParams (parts sig sig.typeParams)

/-- A signature of a constructor or operator, which declares no type parameters. -/
def withoutGenerics (sig : Signature) : Work HeaderSignature :=
  parts sig []

lemma parts_erases (sig : Signature) (generics : List String) :
    (parts sig generics).Erases text (SignatureText.parts sig (inAngles generics)) := by
  refine .same_bind fun result => ?_
  refine .bind (e := List.map HeaderParam.text) (.mapM fun p _ => ?_) fun params => .pure rfl
  exact .same_bind fun type => .pure rfl

lemma of_erases (sig : Signature) : (of sig).Erases text (SignatureText.of sig) :=
  .within (parts_erases sig sig.typeParams)

lemma withoutGenerics_erases (sig : Signature) :
    (withoutGenerics sig).Erases text (SignatureText.withoutGenerics sig) :=
  parts_erases sig []

end HeaderSignature

/-- A header in its parts. -/
inductive Header where
  | klass (symbol : Symbol) (name : LegalName .type) (heritage : Heritage)
  | getter (modifier type : String) (name : LegalName .value)
  | setter (modifier type : String) (name : LegalName .value)
  | function (modifier : String) (name : LegalName .value) (sig : HeaderSignature)
  /-- The constructor of a class. -/
  | factory (owner : LegalName .type) (sig : HeaderSignature)
  /-- The operator that reads by a key. -/
  | reads (sig : HeaderSignature)
  /-- The operator that writes by a key. -/
  | writes (sig : HeaderSignature)

namespace Header

/-- The header put together. -/
def text : Header → String
  | .klass symbol name heritage => classHeader symbol name.text heritage
  | .getter modifier type name => getterHeader modifier type name.text
  | .setter modifier type name => setterHeader modifier type name.text
  | .function modifier name sig => functionHeader modifier name.text sig.text
  | .factory owner sig => "external factory " ++ owner.text ++ "(" ++ sig.text.params ++ ");"
  | .reads sig => "external " ++ sig.result ++ " operator [](" ++ sig.text.params ++ ");"
  | .writes sig => "external void operator []=(" ++ operatorKey sig.text.params ++ ", " ++
      sig.result ++ " value);"

/-- The names that a header declares, and the role of each; without those of type parameters. -/
def names : Header → List (String × NameRole)
  | .klass _ name _ => [(name.text, .type)]
  | .getter _ _ name => [(name.text, .value)]
  | .setter _ _ name => [(name.text, .value), ("value", .value)]
  | .function _ name sig => (name.text, .value) :: sig.names
  | .factory owner sig => (owner.text, .type) :: sig.names
  | .reads sig => sig.names
  | .writes sig => sig.names ++ [("value", .value)]

/-- The names of the type parameters that a header declares. -/
def generics : Header → List String
  | .klass symbol _ _ => symbol.typeParams
  | .function _ _ sig => sig.generics
  | .getter .. | .setter .. | .factory .. | .reads .. | .writes .. => []

/-- **The names in a header are legal.** -/
lemma usable (header : Header) :
    ∀ n ∈ header.names, Identifier.validate n.1 n.2 = .usable := by
  have hvalue : Identifier.validate "value" .value = .usable := by decide
  have hparams : ∀ sig : HeaderSignature, ∀ n ∈ sig.names,
      Identifier.validate n.1 n.2 = .usable := by
    intro sig n hn
    obtain ⟨p, -, rfl⟩ := List.mem_map.mp hn
    exact p.name.usable
  cases header with
  | klass symbol name heritage => simpa [names] using name.usable
  | getter modifier type name => simpa [names] using name.usable
  | setter modifier type name => simpa [names] using ⟨name.usable, hvalue⟩
  | function modifier name sig => exact List.forall_mem_cons.mpr ⟨name.usable, hparams sig⟩
  | factory owner sig => exact List.forall_mem_cons.mpr ⟨owner.usable, hparams sig⟩
  | reads sig => exact hparams sig
  | writes sig =>
      refine List.forall_mem_append.mpr ⟨hparams sig, ?_⟩
      simpa using hvalue

end Header

/-! ## Declarations -/

/-- A declaration with its header in parts, or what stands in the place of one. -/
inductive HeadedDecl where
  | stub (header : String)
  | declared (kind : DeclKind) (header : Header) (metadata docs : List String)

namespace HeadedDecl

/-- The declaration put together. -/
def decl : HeadedDecl → OutputDecl
  | .stub header => .ofStub header
  | .declared kind header metadata docs => { kind, header := header.text, metadata, docs }

/-- The header of a declaration that is no stub. -/
def header? : HeadedDecl → Option Header
  | .stub _ => none
  | .declared _ header _ _ => some header

/-- A member of a class. -/
def ofMember (header : Header) (metadata docs : List String) : HeadedDecl :=
  .declared .member header metadata docs

/-- A declaration of a function, getter or setter at the top of a library. -/
def ofFunction (header : Header) (tag : String) (docs : List String) : HeadedDecl :=
  .declared .function header [tag] docs

end HeadedDecl

/-- A declaration at the top of a library, and those in its body. -/
structure HeadedItem where
  top : HeadedDecl
  members : List HeadedDecl := []

namespace HeadedItem

/-- The declarations put together. -/
def item (h : HeadedItem) : Item :=
  ⟨h.top.decl, h.members.map HeadedDecl.decl⟩

/-- All declarations. -/
def decls (h : HeadedItem) : List HeadedDecl :=
  h.top :: h.members

end HeadedItem

/-! ### Members -/

/-- A property: a getter, and a setter where it may be written. -/
def propertyHeads (modifier name type : String) (readonly : Bool) (docs : List String) :
    List HeadedDecl :=
  let declare (spelling : LegalName .value) (metadata : List String) : List HeadedDecl :=
    .ofMember (.getter modifier type spelling) metadata docs ::
      if readonly then [] else [.ofMember (.setter modifier type spelling) metadata []]
  match h : Identifier.validate name .value with
  | .usable => declare ⟨name, h⟩ []
  | .escaped spelling => declare ⟨spelling, Identifier.usable_of_escaped h _⟩ [scriptName name]
  | .unusable => [.stub (getterHeader modifier type name)]

/-- A method. -/
def methodHead (modifier name : String) (sig : HeaderSignature) (docs : List String) : HeadedDecl :=
  match h : Identifier.validate name .value with
  | .usable => .ofMember (.function modifier ⟨name, h⟩ sig) [] docs
  | .escaped spelling =>
      .ofMember (.function modifier ⟨spelling, Identifier.usable_of_escaped h _⟩ sig)
        [scriptName name] docs
  | .unusable => .stub (functionHeader modifier name sig.text)

/-- What a group of members is declared as, in a class of the given name. -/
def memberHeads (className : LegalName .type) (group : MemberGroup) : Work (List HeadedDecl) := do
  let m := group.effective
  modify (·.pointAt m.span)
  let name := m.name.getD ""
  match m.kind with
  | .property type _ readonly =>
    return propertyHeads (staticModifier m) name (← declaredType type) readonly group.docs
  | .method sig _ => return [methodHead (staticModifier m) name (← HeaderSignature.of sig) group.docs]
  | .call sig =>
    return [.ofMember (.function "" ⟨"call", by decide⟩ (← HeaderSignature.of sig)) [] group.docs]
  | .construct sig =>
    return [.ofMember (.factory className (← HeaderSignature.withoutGenerics sig)) [] group.docs]
  | .index sig =>
    let sig ← HeaderSignature.withoutGenerics sig
    return [.ofMember (.reads sig) [] group.docs, .ofMember (.writes sig) [] []]
  | .nested _ => return []

lemma decl_propertyHeads (modifier name type : String) (readonly : Bool) (docs : List String) :
    (propertyHeads modifier name type readonly docs).map HeadedDecl.decl =
      propertyDecls modifier name type readonly docs := by
  unfold propertyHeads propertyDecls
  dsimp only
  split <;> rename_i hvalid <;> simp only [hvalid] <;> cases readonly <;> rfl

lemma decl_methodHead (modifier name : String) (sig : HeaderSignature) (docs : List String) :
    (methodHead modifier name sig docs).decl = methodDecl modifier name sig.text docs := by
  unfold methodHead methodDecl
  split <;> rename_i hvalid <;> simp only [hvalid] <;> rfl

lemma memberHeads_erases (className : LegalName .type) (group : MemberGroup) :
    (memberHeads className group).Erases (List.map HeadedDecl.decl)
      (memberDecls className.text group) := by
  refine .same_bind fun _ => ?_
  dsimp only
  cases group.effective.kind with
  | property type optional readonly =>
      exact .same_bind fun type => .pure (decl_propertyHeads ..)
  | method sig optional =>
      refine .bind (HeaderSignature.of_erases sig) fun sig => .pure ?_
      rw [List.map_singleton, decl_methodHead]
  | call sig => exact .bind (HeaderSignature.of_erases sig) fun sig => .pure rfl
  | construct sig => exact .bind (HeaderSignature.withoutGenerics_erases sig) fun sig => .pure rfl
  | index sig => exact .bind (HeaderSignature.withoutGenerics_erases sig) fun sig => .pure rfl
  | nested id => exact .pure rfl

/-! ### Symbols -/

/-- The name of a symbol, if it is legal in a role. -/
def legalNameOf (id : Nat) (role : NameRole) : Work (Option (LegalName role)) := do
  return (← Work.nameOf id).bind (LegalName.of? · role)

/-- The declaration of a function whose overloads are merged. -/
def functionHead (id : Nat) (symbol : Symbol) (name : Option (LegalName .value))
    (group : MemberGroup) : Work (List HeadedItem) := do
  match group.effective.signature? with
  | none => return []
  | some sig =>
    modify (·.pointAt group.effective.span)
    let sig ← HeaderSignature.of sig
    match name with
    | none => return [⟨.stub (functionHeader "" symbol.name sig.text), []⟩]
    | some name =>
      let tag := scriptTag (← Work.table) id symbol name.text
      return [⟨.ofFunction (.function "" name sig) tag (group.docs.map (symbol.name ++ ·)), []⟩]

/-- The declarations of a function. -/
def functionHeads (id : Nat) (symbol : Symbol) : Work (List HeadedItem) := do
  if symbol.callSignatures.isEmpty then
    throw (.structural symbol.span (.noSignature symbol.name))
  let name ← legalNameOf id .value
  let groups ← mergeMembers symbol.members
  return (← groups.mapM (functionHead id symbol name)).flatten

/-- The declarations of a variable: a getter, and a setter unless it is constant. -/
def variableHeads (id : Nat) (symbol : Symbol) : Work (List HeadedItem) := do
  match symbol.variableType? with
  | none => throw (.structural symbol.span (.noType symbol.name))
  | some (type, readonly) =>
    let type ← declaredType type
    match ← legalNameOf id .value with
    | none => return [⟨.stub (getterHeader "" type symbol.name), []⟩]
    | some name =>
      let tag := scriptTag (← Work.table) id symbol name.text
      let getter : HeadedItem := ⟨.ofFunction (.getter "" type name) tag [], []⟩
      let setter : HeadedItem := ⟨.ofFunction (.setter "" type name) tag [], []⟩
      return if readonly then [getter] else [getter, setter]

/-- A class with its members. -/
def classHeadBody (id : Nat) (symbol : Symbol) (name : LegalName .type) : Work HeadedItem := do
  let heritage ← Heritage.of symbol
  let table ← Work.table
  let groups ← mergeMembers symbol.members
  let members ← groups.mapM (memberHeads name)
  return ⟨.declared .klass (.klass symbol name heritage)
    (scriptTag table id symbol name.text ::
      if symbol.kind == .interface then ["@anonymous"] else []) heritage.notes, members.flatten⟩

/-- The declaration of a class, interface or enum. -/
def classHead (id : Nat) (symbol : Symbol) : Work HeadedItem := do
  match ← legalNameOf id .type with
  | none => return ⟨.stub (classKeyword symbol.kind ++ " " ++ symbol.name ++ " \x7b\x7d"), []⟩
  | some name => Work.inScope symbol.typeParams (classHeadBody id symbol name)

/-- The declarations of a symbol.  A namespace leaves none itself. -/
def symbolHeads (id : Nat) (symbol : Symbol) : Work (List HeadedItem) := do
  modify (·.pointAt symbol.span)
  match symbol.kind with
  | .klass | .interface | .enum => return [← classHead id symbol]
  | .function => functionHeads id symbol
  | .variable => variableHeads id symbol
  | .alias | .typeParameter | .nameSpace => return []

/-! ## Putting together -/

lemma functionHead_erases (id : Nat) (symbol : Symbol) (name : Option (LegalName .value))
    (group : MemberGroup) : (functionHead id symbol name group).Erases (List.map HeadedItem.item)
      (functionItem id symbol (name.map LegalName.text) group) := by
  unfold functionHead functionItem
  cases group.effective.signature? with
  | none => exact .pure rfl
  | some sig =>
      refine .same_bind fun _ => .bind (HeaderSignature.of_erases sig) fun sig => ?_
      cases name with
      | none => exact .pure rfl
      | some name => exact .same_bind fun table => .pure rfl

lemma classHeadBody_erases (id : Nat) (symbol : Symbol) (name : LegalName .type) :
    (classHeadBody id symbol name).Erases HeadedItem.item (classBody id symbol name.text) := by
  refine .same_bind fun heritage => ?_
  refine .same_bind fun table => .same_bind fun groups => ?_
  have hgroups : (groups.mapM (memberHeads name)).Erases (List.map (List.map HeadedDecl.decl))
      (groups.mapM (memberDecls name.text)) :=
    .mapM fun group _ => memberHeads_erases name group
  refine .bind hgroups fun members => .pure ?_
  rw [HeadedItem.item, List.map_flatten]
  rfl

/-! ## Under legal names -/

namespace Work

variable {α β γ δ ε : Type} {base : Session} {e : α → β} {e' : γ → δ}

/-- A computation that does what another one does, but whose result says more, in sessions with the
names of a given one. -/
def ErasesIn (base : Session) (e : α → β) (w : Work α) (v : Work β) : Prop :=
  ∀ s, base.SameNames s → v.exec s = ((w.exec s).1.map e, (w.exec s).2)

namespace ErasesIn

lemma of_erases {w : Work α} {v : Work β} (h : w.Erases e v) : w.ErasesIn base e v :=
  fun s _ => h s

/-- What follows may begin in any session. -/
lemma bind {w : Work α} {v : Work β} {k : α → Work γ} {l : β → Work δ} (hw : w.ErasesIn base e v)
    (hk : ∀ a, (k a).Erases e' (l (e a))) : (w >>= k).ErasesIn base e' (v >>= l) := by
  intro s hs
  rw [exec_bind, exec_bind, hw s hs]
  rcases w.exec s with ⟨failure | a, t⟩
  · rfl
  · exact hk a t

/-- Both begin with the same, which gives no name. -/
lemma same_bind {w : Work ε} {k : ε → Work γ} {l : ε → Work δ}
    (hw : w.Ensures base fun _ => True) (hk : ∀ a, (k a).ErasesIn base e' (l a)) :
    (w >>= k).ErasesIn base e' (w >>= l) := by
  intro s hs
  have hsame := (hw s hs).1
  rw [exec_bind, exec_bind]
  rcases hrun : w.exec s with ⟨failure | a, t⟩
  · rfl
  · rw [hrun] at hsame
    exact hk a t hsame

end ErasesIn

end Work

section

variable {base : Session} {may : Failure → Prop} (hbase : base.Settled may) {id : Nat}
  {symbol : Symbol} (hid : base.table.get? id = some symbol)
include hbase hid

/-- A symbol whose name is legal keeps it. -/
lemma legalNameOf_erases (hkind : symbol.kind.isEmitted = true) {role : NameRole}
    (hlegal : ∀ name, base.flatName symbol = some name →
      Identifier.validate name role = .usable) :
    (legalNameOf id role).ErasesIn base (Option.map LegalName.text) (nameOf id) := by
  intro s hs
  have hanswer := (nameOf_ensures hbase hid hkind s hs).2
  unfold legalNameOf
  rw [exec_bind]
  rcases hrun : (nameOf id).exec s with ⟨failure | name, t⟩
  · rfl
  · rw [hrun] at hanswer
    have hname := hanswer name rfl
    cases name with
    | none => rfl
    | some name =>
        have hspelled := LegalName.of?_eq_some (hlegal name hname.symm)
        simp only [next, Option.bind_some, hspelled]
        rfl

lemma functionHeads_erases (hkind : symbol.kind = .function)
    (hlegal : ∀ name, base.flatName symbol = some name →
      Identifier.validate name .value = .usable) :
    (functionHeads id symbol).ErasesIn base (List.map HeadedItem.item) (functionItems id symbol) := by
  have hemitted : symbol.kind.isEmitted = true := by rw [hkind]; rfl
  unfold functionHeads functionItems
  split_ifs
  · exact fun _ _ => rfl
  · refine .bind (legalNameOf_erases hbase hid hemitted hlegal) fun name => ?_
    refine .same_bind fun groups => ?_
    have hgroups : (groups.mapM (functionHead id symbol name)).Erases
        (List.map (List.map HeadedItem.item))
        (groups.mapM (functionItem id symbol (name.map LegalName.text))) :=
      .mapM fun group _ => functionHead_erases id symbol name group
    exact .bind hgroups fun items => .pure List.map_flatten

lemma variableHeads_erases (hkind : symbol.kind = .variable)
    (hlegal : ∀ name, base.flatName symbol = some name →
      Identifier.validate name .value = .usable) :
    (variableHeads id symbol).ErasesIn base (List.map HeadedItem.item) (variableItems id symbol) := by
  have hemitted : symbol.kind.isEmitted = true := by rw [hkind]; rfl
  unfold variableHeads variableItems
  cases symbol.variableType? with
  | none => exact fun _ _ => rfl
  | some typed =>
      refine .same_bind (.of_traced hbase (declaredType_traced _)) fun type => ?_
      refine .bind (legalNameOf_erases hbase hid hemitted hlegal) fun name => ?_
      cases name with
      | none => exact .pure rfl
      | some name =>
          refine .same_bind fun table => .pure ?_
          cases typed.2 <;> rfl

lemma classHead_erases (hemitted : symbol.kind.isEmitted = true)
    (hlegal : ∀ name, base.flatName symbol = some name →
      Identifier.validate name .type = .usable) :
    (classHead id symbol).ErasesIn base HeadedItem.item (classItem id symbol) := by
  refine .bind (legalNameOf_erases hbase hid hemitted hlegal) fun name => ?_
  cases name with
  | none => exact .pure rfl
  | some name => exact .within (classHeadBody_erases id symbol name)

/-- **What the program writes for a symbol** is what these declarations are put together to, if the
name that the symbol was given is legal. -/
theorem symbolHeads_erases (hkind : symbol.kind ≠ .nameSpace)
    (hlegal : ∀ name, symbol.kind.isEmitted = true → base.flatName symbol = some name →
      Identifier.validate name symbol.kind.role = .usable) (inside : Nat → Work (List Item)) :
    (symbolHeads id symbol).ErasesIn base (List.map HeadedItem.item)
      (symbolItems inside id symbol) := by
  refine .same_bind (.pointAt _) fun _ => ?_
  cases hk : symbol.kind with
  | nameSpace => exact absurd hk hkind
  | klass | interface | enum =>
      have hemitted : symbol.kind.isEmitted = true := by rw [hk]; rfl
      have htype : ∀ name, base.flatName symbol = some name →
          Identifier.validate name .type = .usable := by
        simpa [hk, SymbolKind.isEmitted, SymbolKind.role] using hlegal
      exact .bind (classHead_erases hbase hid hemitted htype) fun item => .pure rfl
  | function =>
      refine functionHeads_erases hbase hid hk ?_
      simpa [hk, SymbolKind.isEmitted, SymbolKind.role] using hlegal
  | «variable» =>
      refine variableHeads_erases hbase hid hk ?_
      simpa [hk, SymbolKind.isEmitted, SymbolKind.role] using hlegal
  | «alias» | typeParameter => exact .of_erases (.pure rfl)

end

end Interop
