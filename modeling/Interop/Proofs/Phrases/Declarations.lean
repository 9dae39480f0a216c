import Interop.Proofs.Files
import Interop.Proofs.Phrases.Types

/-!
# Declarations in their parts

The declarations of a library are written once more, with phrases where the program writes the text of
types.  A draft is a declaration whose header is a phrase.  It also keeps what was rendered for the
declaration and then left out: a constructor has a result type, but the target does not declare one.

* `Draft`, `DraftItem` — declarations whose headers are phrases; `DraftItem.item` puts them together.
* `fileDrafts` — the declarations of a file in their parts.
* **`filesItems_drafts`** — what the program writes is what the drafts are put together to.
-/

namespace Interop

open Work

/-! ## Types and signatures -/

/-- The type of a declaration, in its parts. -/
def phrasedType (ty : Ty) : Work Phrase := do
  return (← phrase ty {}).withComment

lemma phrasedType_erases (ty : Ty) : (phrasedType ty).Erases Phrase.text (declaredType ty) :=
  phrase_erases.withComment ty {}

/-- A signature as it is declared, in its parts. -/
structure SignaturePhrase where
  result : Phrase
  generics : String
  params : Phrase
  deriving DecidableEq, Repr

namespace SignaturePhrase

/-- The signature put together. -/
def text (sig : SignaturePhrase) : SignatureText :=
  ⟨sig.result.text, sig.generics, sig.params.text⟩

/-- A parameter, and whether it may be left out. -/
def param (p : Param) (index : Nat) : Work (Bool × Phrase) := do
  let type ← phrasedType p.argumentType
  return (p.optional || p.rest, type ++ [.code (" " ++ SignatureText.paramName index p)])

/-- A signature whose type parameters are in scope, if they are to be. -/
def parts (sig : Signature) (generics : String) : Work SignaturePhrase := do
  let result ← phrasedType sig.result
  let params ← sig.params.zipIdx.mapM fun (p, index) => param p index
  return ⟨result, generics, .parameterList params⟩

/-- A signature of a function that declares its own type parameters. -/
def of (sig : Signature) : Work SignaturePhrase :=
  Work.inScope sig.typeParams (parts sig (inAngles sig.typeParams))

/-- A signature of a constructor or operator, which declares no type parameters. -/
def withoutGenerics (sig : Signature) : Work SignaturePhrase :=
  parts sig ""

lemma parts_erases (sig : Signature) (generics : String) :
    (parts sig generics).Erases text (SignatureText.parts sig generics) := by
  refine .bind (phrasedType_erases _) fun result => ?_
  refine .bind (e := List.map fun p : Bool × Phrase => (p.1, p.2.text))
    (.mapM fun p _ => ?_) fun params => .pure ?_
  · refine .bind (phrasedType_erases _) fun type => .pure ?_
    simp [Piece.text, String.append_assoc]
  · simp [text, Phrase.text_parameterList]

lemma of_erases (sig : Signature) : (of sig).Erases text (SignatureText.of sig) :=
  .within (parts_erases sig _)

lemma withoutGenerics_erases (sig : Signature) :
    (withoutGenerics sig).Erases text (SignatureText.withoutGenerics sig) :=
  parts_erases sig ""

end SignaturePhrase

/-! ## Drafts -/

/-- A declaration whose header is in its parts. -/
structure Draft where
  kind : DeclKind
  header : Phrase
  metadata : List String := []
  docs : List String := []
  /-- What was rendered for the declaration and is not part of it. -/
  unwritten : Phrase := []
  deriving DecidableEq, Repr

namespace Draft

/-- The declaration put together. -/
def decl (d : Draft) : OutputDecl :=
  { kind := d.kind, header := d.header.text, metadata := d.metadata, docs := d.docs }

/-- A member of a class. -/
def ofMember (header : Phrase) (metadata docs : List String) : Draft :=
  { kind := .member, header, metadata, docs }

/-- A declaration of a function, getter or setter at the top of a library. -/
def ofFunction (header : Phrase) (tag : String) (docs : List String) : Draft :=
  { kind := .function, header, metadata := [tag], docs }

/-- What stands in the place of a declaration that cannot be written. -/
def ofStub (header : Phrase) : Draft :=
  { kind := .stub, header, docs := ["No legal name in the target; kept for reference."] }

@[simp] lemma decl_ofMember (header : Phrase) (metadata docs : List String) :
    (ofMember header metadata docs).decl = .ofMember header.text metadata docs := rfl

@[simp] lemma decl_ofFunction (header : Phrase) (tag : String) (docs : List String) :
    (ofFunction header tag docs).decl = .ofFunction header.text tag docs := rfl

@[simp] lemma decl_ofStub (header : Phrase) : (ofStub header).decl = .ofStub header.text := rfl

end Draft

/-! ### Headers -/

/-- A getter. -/
def getterPhrase (modifier : String) (type : Phrase) (name : String) : Phrase :=
  .code ("external " ++ modifier) :: type ++ [.code (" get " ++ name ++ ";")]

/-- A setter. -/
def setterPhrase (modifier : String) (type : Phrase) (name : String) : Phrase :=
  .code ("external " ++ modifier ++ "set " ++ name ++ "(") :: type ++ [.code " value);"]

/-- A function. -/
def functionPhrase (modifier name : String) (sig : SignaturePhrase) : Phrase :=
  .code ("external " ++ modifier) :: sig.result ++
    .code (" " ++ name ++ sig.generics ++ "(") :: sig.params ++ [.code ");"]

section

variable (modifier name : String)

@[simp] lemma text_getterPhrase (type : Phrase) :
    (getterPhrase modifier type name).text = getterHeader modifier type.text name := by
  simp [getterPhrase, getterHeader, Piece.text, String.append_assoc]

@[simp] lemma text_setterPhrase (type : Phrase) :
    (setterPhrase modifier type name).text = setterHeader modifier type.text name := by
  simp [setterPhrase, setterHeader, Piece.text, String.append_assoc]

@[simp] lemma text_functionPhrase (sig : SignaturePhrase) :
    (functionPhrase modifier name sig).text = functionHeader modifier name sig.text := by
  simp [functionPhrase, functionHeader, SignaturePhrase.text, Piece.text, String.append_assoc]

end

/-! ## Members -/

/-- A property: a getter, and a setter where it may be written. -/
def propertyDrafts (modifier name : String) (type : Phrase) (readonly : Bool)
    (docs : List String) : List Draft :=
  let declare (spelling : String) (metadata : List String) : List Draft :=
    .ofMember (getterPhrase modifier type spelling) metadata docs ::
      if readonly then [] else [.ofMember (setterPhrase modifier type spelling) metadata []]
  match Identifier.validate name .value with
  | .usable => declare name []
  | .escaped spelling => declare spelling [scriptName name]
  | .unusable => [.ofStub (getterPhrase modifier type name)]

/-- A method. -/
def methodDraft (modifier name : String) (sig : SignaturePhrase) (docs : List String) : Draft :=
  match Identifier.validate name .value with
  | .usable => .ofMember (functionPhrase modifier name sig) [] docs
  | .escaped spelling => .ofMember (functionPhrase modifier spelling sig) [scriptName name] docs
  | .unusable => .ofStub (functionPhrase modifier name sig)

/-- A constructor.  Its result is the class. -/
def constructorDraft (className : String) (sig : SignaturePhrase) (docs : List String) : Draft :=
  { Draft.ofMember (.code ("external factory " ++ className ++ "(") :: sig.params ++ [.code ");"])
      [] docs with unwritten := sig.result }

/-- An index signature: an operator that reads and one that writes. -/
def operatorDrafts (sig : SignaturePhrase) (docs : List String) : List Draft :=
  [.ofMember (.code "external " :: sig.result ++ .code " operator [](" :: sig.params ++ [.code ");"])
      [] docs,
    .ofMember (.code ("external void operator []=(" ++ operatorKey sig.params.text ++ ", ") ::
      sig.result ++ [.code " value);"]) [] []]

/-- What a group of members is declared as, in a class of the given name. -/
def memberDrafts (className : String) (group : MemberGroup) : Work (List Draft) := do
  let m := group.effective
  modify (·.pointAt m.span)
  let name := m.name.getD ""
  match m.kind with
  | .property type _ readonly =>
    return propertyDrafts (staticModifier m) name (← phrasedType type) readonly group.docs
  | .method sig _ =>
    return [methodDraft (staticModifier m) name (← SignaturePhrase.of sig) group.docs]
  | .call sig =>
    return [.ofMember (functionPhrase "" "call" (← SignaturePhrase.of sig)) [] group.docs]
  | .construct sig =>
    return [constructorDraft className (← SignaturePhrase.withoutGenerics sig) group.docs]
  | .index sig => return operatorDrafts (← SignaturePhrase.withoutGenerics sig) group.docs
  | .nested _ => return []

lemma decl_propertyDrafts (modifier name : String) (type : Phrase) (readonly : Bool)
    (docs : List String) : (propertyDrafts modifier name type readonly docs).map Draft.decl =
      propertyDecls modifier name type.text readonly docs := by
  unfold propertyDrafts propertyDecls
  cases Identifier.validate name .value <;> cases readonly <;> simp

lemma decl_methodDraft (modifier name : String) (sig : SignaturePhrase) (docs : List String) :
    (methodDraft modifier name sig docs).decl = methodDecl modifier name sig.text docs := by
  unfold methodDraft methodDecl
  cases Identifier.validate name .value <;> simp

lemma decl_constructorDraft (className : String) (sig : SignaturePhrase) (docs : List String) :
    (constructorDraft className sig docs).decl =
      .ofMember ("external factory " ++ className ++ "(" ++ sig.params.text ++ ");") [] docs := by
  simp [constructorDraft, Draft.decl, Draft.ofMember, OutputDecl.ofMember, Piece.text,
    String.append_assoc]

lemma decl_operatorDrafts (sig : SignaturePhrase) (docs : List String) :
    (operatorDrafts sig docs).map Draft.decl = operatorDecls sig.text docs := by
  simp [operatorDrafts, operatorDecls, SignaturePhrase.text, Piece.text, String.append_assoc]

lemma memberDrafts_erases (className : String) (group : MemberGroup) :
    (memberDrafts className group).Erases (List.map Draft.decl) (memberDecls className group) := by
  refine .same_bind fun _ => ?_
  dsimp only
  cases group.effective.kind with
  | property type optional readonly =>
      exact .bind (phrasedType_erases _) fun type => .pure (decl_propertyDrafts ..)
  | method sig optional =>
      refine .bind (SignaturePhrase.of_erases sig) fun sig => .pure ?_
      rw [List.map_singleton, decl_methodDraft]
  | call sig =>
      refine .bind (SignaturePhrase.of_erases sig) fun sig => .pure ?_
      rw [List.map_singleton, Draft.decl_ofMember, text_functionPhrase]
  | construct sig =>
      refine .bind (SignaturePhrase.withoutGenerics_erases sig) fun sig => .pure ?_
      rw [List.map_singleton, decl_constructorDraft]
      rfl
  | index sig =>
      exact .bind (SignaturePhrase.withoutGenerics_erases sig) fun sig =>
        .pure (decl_operatorDrafts ..)
  | nested id => exact .pure rfl

/-! ## Functions and variables -/

/-- A declaration at the top of a library, and those in its body. -/
structure DraftItem where
  top : Draft
  members : List Draft := []
  deriving DecidableEq, Repr

namespace DraftItem

/-- The declarations put together. -/
def item (d : DraftItem) : Item :=
  ⟨d.top.decl, d.members.map Draft.decl⟩

/-- All declarations. -/
def drafts (d : DraftItem) : List Draft :=
  d.top :: d.members

end DraftItem

/-- The declaration of a function whose overloads are merged. -/
def functionDraft (id : Nat) (symbol : Symbol) (name : Option String) (group : MemberGroup) :
    Work (List DraftItem) := do
  match group.effective.signature? with
  | none => return []
  | some sig =>
    modify (·.pointAt group.effective.span)
    let sig ← SignaturePhrase.of sig
    match name with
    | none => return [⟨.ofStub (functionPhrase "" symbol.name sig), []⟩]
    | some name =>
      let tag := scriptTag (← Work.table) id symbol name
      return [⟨.ofFunction (functionPhrase "" name sig) tag (group.docs.map (symbol.name ++ ·)), []⟩]

/-- The declarations of a function. -/
def functionDrafts (id : Nat) (symbol : Symbol) : Work (List DraftItem) := do
  if symbol.callSignatures.isEmpty then
    throw (.structural symbol.span (.noSignature symbol.name))
  let name ← Work.nameOf id
  let groups ← mergeMembers symbol.members
  return (← groups.mapM (functionDraft id symbol name)).flatten

/-- The declarations of a variable: a getter, and a setter unless it is constant. -/
def variableDrafts (id : Nat) (symbol : Symbol) : Work (List DraftItem) := do
  match symbol.variableType? with
  | none => throw (.structural symbol.span (.noType symbol.name))
  | some (type, readonly) =>
    let type ← phrasedType type
    match ← Work.nameOf id with
    | none => return [⟨.ofStub (getterPhrase "" type symbol.name), []⟩]
    | some name =>
      let tag := scriptTag (← Work.table) id symbol name
      let getter : DraftItem := ⟨.ofFunction (getterPhrase "" type name) tag [], []⟩
      let setter : DraftItem := ⟨.ofFunction (setterPhrase "" type name) tag [], []⟩
      return if readonly then [getter] else [getter, setter]

lemma functionDraft_erases (id : Nat) (symbol : Symbol) (name : Option String)
    (group : MemberGroup) : (functionDraft id symbol name group).Erases
      (List.map DraftItem.item) (functionItem id symbol name group) := by
  unfold functionDraft functionItem
  cases group.effective.signature? with
  | none => exact .pure rfl
  | some sig =>
      refine .same_bind fun _ => .bind (SignaturePhrase.of_erases sig) fun sig => ?_
      cases name with
      | none => exact .pure (by simp [DraftItem.item])
      | some name => exact .same_bind fun table => .pure (by simp [DraftItem.item])

lemma functionDrafts_erases (id : Nat) (symbol : Symbol) :
    (functionDrafts id symbol).Erases (List.map DraftItem.item) (functionItems id symbol) := by
  have hrest : Work.Erases (List.map DraftItem.item)
      (do
        let name ← Work.nameOf id
        let groups ← mergeMembers symbol.members
        return (← groups.mapM (functionDraft id symbol name)).flatten)
      (do
        let name ← Work.nameOf id
        let groups ← mergeMembers symbol.members
        return (← groups.mapM (functionItem id symbol name)).flatten) := by
    refine .same_bind fun name => .same_bind fun groups => ?_
    exact .bind (.mapM fun group _ => functionDraft_erases id symbol name group) fun items =>
      .pure List.map_flatten
  unfold functionDrafts functionItems
  split_ifs
  · exact .same_bind fun _ => hrest
  · exact hrest

lemma variableDrafts_erases (id : Nat) (symbol : Symbol) :
    (variableDrafts id symbol).Erases (List.map DraftItem.item) (variableItems id symbol) := by
  unfold variableDrafts variableItems
  cases symbol.variableType? with
  | none => exact .throw _
  | some typed =>
      obtain ⟨type, readonly⟩ := typed
      refine .bind (phrasedType_erases type) fun type => .same_bind fun name => ?_
      cases name with
      | none => exact .pure (by simp [DraftItem.item])
      | some name =>
          refine .same_bind fun table => .pure ?_
          cases readonly <;> simp [DraftItem.item]

/-! ## Classes -/

/-- The base types of a class, in their parts. -/
structure HeritagePhrase where
  superclass : Option Phrase := none
  interfaces : List Phrase := []
  notes : List String := []
  deriving DecidableEq, Repr

/-- The base types put together. -/
def HeritagePhrase.heritage (h : HeritagePhrase) : Heritage :=
  ⟨h.superclass.map Phrase.text, h.interfaces.map Phrase.text, h.notes⟩

/-- Add the base at a place. -/
def HeritagePhrase.add (symbol : Symbol) (h : HeritagePhrase) (base : Ty) (index : Nat) :
    Work HeritagePhrase := do
  let table ← Work.table
  if isBase table base then
    let text ← phrasedType base
    if index == 0 && symbol.hasSuperclass && symbol.kind == .klass then
      return { h with superclass := some text }
    else return { h with interfaces := h.interfaces ++ [text] }
  else return { h with notes := h.notes ++ ["Base type `" ++ base.text table ++
    "` is not representable."] }

/-- The base types of a symbol. -/
def HeritagePhrase.of (symbol : Symbol) : Work HeritagePhrase :=
  symbol.bases.zipIdx.foldlM (fun h (base, index) => h.add symbol base index) {}

/-- The first line of a class. -/
def classPhrase (symbol : Symbol) (name : String) (h : HeritagePhrase) : Phrase :=
  .code (classKeyword symbol.kind ++ " " ++ name ++ inAngles symbol.typeParams) ::
    (h.superclass.map (.code " extends " :: ·)).getD [] ++
    if h.interfaces.isEmpty then [] else .code " implements " :: Phrase.joined ", " h.interfaces

/-- A class with its members. -/
def classDraftBody (id : Nat) (symbol : Symbol) (name : String) : Work DraftItem := do
  let heritage ← HeritagePhrase.of symbol
  let table ← Work.table
  let groups ← mergeMembers symbol.members
  let members ← groups.mapM (memberDrafts name)
  return ⟨{ kind := .klass, header := classPhrase symbol name heritage,
            metadata := scriptTag table id symbol name ::
              if symbol.kind == .interface then ["@anonymous"] else [],
            docs := heritage.notes }, members.flatten⟩

/-- The declaration of a class, interface or enum. -/
def classDraft (id : Nat) (symbol : Symbol) : Work DraftItem := do
  match ← Work.nameOf id with
  | none =>
    return ⟨.ofStub [.code (classKeyword symbol.kind ++ " " ++ symbol.name ++ " \x7b\x7d")], []⟩
  | some name => Work.inScope symbol.typeParams (classDraftBody id symbol name)

lemma HeritagePhrase.add_erases (symbol : Symbol) (h : HeritagePhrase) (base : Ty) (index : Nat) :
    (h.add symbol base index).Erases heritage (h.heritage.add symbol base index) := by
  refine .same_bind fun table => ?_
  split_ifs
  · exact .bind (phrasedType_erases base) fun text => .pure rfl
  · exact .bind (phrasedType_erases base) fun text => .pure (by simp [heritage])
  · exact .pure rfl

lemma HeritagePhrase.of_erases (symbol : Symbol) :
    (HeritagePhrase.of symbol).Erases heritage (Heritage.of symbol) := by
  have hnone : ({} : HeritagePhrase).heritage = {} := rfl
  unfold HeritagePhrase.of Heritage.of
  rw [← hnone]
  exact .foldlM fun h entry _ => HeritagePhrase.add_erases symbol h entry.1 entry.2

lemma text_classPhrase (symbol : Symbol) (name : String) (h : HeritagePhrase) :
    (classPhrase symbol name h).text = classHeader symbol name h.heritage := by
  obtain ⟨superclass, interfaces, notes⟩ := h
  cases superclass <;> cases interfaces <;>
    simp [classPhrase, classHeader, HeritagePhrase.heritage, Piece.text, String.append_assoc]

lemma classDraftBody_erases (id : Nat) (symbol : Symbol) (name : String) :
    (classDraftBody id symbol name).Erases DraftItem.item (classBody id symbol name) := by
  refine .bind (HeritagePhrase.of_erases symbol) fun heritage => ?_
  refine .same_bind fun table => .same_bind fun groups => ?_
  refine .bind (.mapM fun group _ => memberDrafts_erases name group) fun members => .pure ?_
  simp [DraftItem.item, Draft.decl, text_classPhrase, List.map_flatten, HeritagePhrase.heritage]

lemma classDraft_erases (id : Nat) (symbol : Symbol) :
    (classDraft id symbol).Erases DraftItem.item (classItem id symbol) := by
  refine .same_bind fun name => ?_
  cases name with
  | none => exact .pure (by simp [DraftItem.item, Piece.text])
  | some name => exact .within (classDraftBody_erases id symbol name)

/-! ## Scopes and files -/

/-- The declarations of a symbol, given those of the symbols in a namespace. -/
def symbolDrafts (inside : Nat → Work (List DraftItem)) (id : Nat) (symbol : Symbol) :
    Work (List DraftItem) := do
  modify (·.pointAt symbol.span)
  match symbol.kind with
  | .nameSpace => inside id
  | .klass | .interface | .enum => return [← classDraft id symbol]
  | .function => functionDrafts id symbol
  | .variable => variableDrafts id symbol
  | .alias | .typeParameter => return []

/-- The declarations of all symbols of a file that stand in a namespace, or at the top. -/
def scopeDrafts : (levels : Nat) → (file : Nat) → (parent : Option Nat) → Work (List DraftItem)
  | 0, _, _ => return []
  | levels + 1, file, parent => do
    let table ← Work.table
    let items ← (table.children file parent).mapM fun id => do
      match table.get? id with
      | some symbol =>
        symbolDrafts (fun inner => scopeDrafts levels file (some inner)) id symbol
      | none => return []
    return items.flatten

/-- The declarations of a file. -/
def fileDrafts (file : Nat) : Work (List DraftItem) := do
  scopeDrafts ((← Work.table).size + 1) file none

/-- The declarations of a file, after what could not be lowered is reported. -/
def CollectedFile.drafts (f : CollectedFile) : Work (List DraftItem) := do
  f.notes.forM Work.report
  fileDrafts f.file

/-- The declarations of several files.  The reports of each are handed over at its end. -/
def filesDrafts : List CollectedFile → Work (List DraftItem)
  | [] => return []
  | f :: rest => do
    let items ← f.drafts
    modify Session.handedOver
    return items ++ (← filesDrafts rest)

lemma symbolDrafts_erases {drafts : Nat → Work (List DraftItem)} {items : Nat → Work (List Item)}
    (h : ∀ inner, (drafts inner).Erases (List.map DraftItem.item) (items inner)) (id : Nat)
    (symbol : Symbol) : (symbolDrafts drafts id symbol).Erases (List.map DraftItem.item)
      (symbolItems items id symbol) := by
  refine .same_bind fun _ => ?_
  cases symbol.kind with
  | nameSpace => exact h id
  | klass | interface | enum => exact .bind (classDraft_erases id symbol) fun item => .pure rfl
  | function => exact functionDrafts_erases id symbol
  | «variable» => exact variableDrafts_erases id symbol
  | «alias» | typeParameter => exact .pure rfl

lemma scopeDrafts_erases (levels : Nat) : ∀ (file : Nat) (parent : Option Nat),
    (scopeDrafts levels file parent).Erases (List.map DraftItem.item)
      (scopeItems levels file parent) := by
  induction levels with
  | zero => intro _ _; exact .pure rfl
  | succ levels ih =>
      intro file parent
      refine .same_bind fun table => .bind (.mapM fun id _ => ?_) fun items => .pure List.map_flatten
      cases table.get? id with
      | none => exact .pure rfl
      | some symbol => exact symbolDrafts_erases (fun inner => ih file (some inner)) id symbol

lemma CollectedFile.drafts_erases (f : CollectedFile) :
    f.drafts.Erases (List.map DraftItem.item) f.items :=
  .same_bind fun _ => .same_bind fun _ => scopeDrafts_erases _ _ _

/-- **What is written is what the drafts are put together to**, and if nothing is given up, nothing
else is done on the way either. -/
theorem filesItems_drafts : ∀ (files : List CollectedFile) (s : Session),
    ((filesItems files).run s).1.1 =
        ((filesDrafts files).exec s).1.map (List.map DraftItem.item) ∧
      ∀ drafts t, (filesDrafts files).exec s = (.ok drafts, t) →
        ((filesItems files).run s).2 = t
  | [], s => ⟨rfl, fun drafts t h => (Prod.mk.inj h).2⟩
  | f :: rest, s => by
      have hfile := f.drafts_erases s
      have hrun : (filesDrafts (f :: rest)).exec s = next (fun items => do
          modify Session.handedOver
          return items ++ (← filesDrafts rest)) (f.drafts.exec s) := exec_bind _ _ s
      rcases hdrafts : f.drafts.exec s with ⟨failure | items, t⟩
      · rw [hdrafts] at hfile hrun
        have herror : (f.items.exec s).1 = .error failure := by rw [hfile]; rfl
        rw [filesItems_cons_error herror, hrun]
        exact ⟨rfl, fun _ _ h => by cases h⟩
      · rw [hdrafts] at hfile hrun
        have hok : (f.items.exec s).1 = .ok (items.map DraftItem.item) := by rw [hfile]; rfl
        have hafter : f.after s = t.handedOver := by rw [CollectedFile.after, hfile]
        obtain ⟨hrest, hleft⟩ := filesItems_drafts rest t.handedOver
        have hnext : (filesDrafts (f :: rest)).exec s =
            next (fun more => pure (items ++ more)) ((filesDrafts rest).exec t.handedOver) := by
          rw [hrun]
          exact exec_bind (filesDrafts rest) (fun more => pure (items ++ more)) t.handedOver
        rw [filesItems_cons_ok hok, hafter, hnext]
        rcases hmore : (filesDrafts rest).exec t.handedOver with ⟨failure | more, u⟩
        · rw [hmore] at hrest
          exact ⟨by simp only [hrest]; rfl, fun _ _ h => by cases h⟩
        · rw [hmore] at hrest
          refine ⟨?_, fun drafts v h => ?_⟩
          · simp only [hrest, Except.map]
            exact congrArg Except.ok List.map_append.symm
          · exact (hleft more u hmore).trans (Prod.mk.inj h).2

end Interop
