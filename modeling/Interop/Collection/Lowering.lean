import Interop.Diagnostic.Basic
import Interop.Source.Syntax
import Interop.Symbol.Platform

/-!
# From syntax to types

Type syntax becomes the type language: names are looked up from the innermost namespace outwards, and
what has no counterpart is kept as written and noted.

* `LoweringScope` — what a declaration may refer to.
* `TypeNode.lower`, `SignatureNode.lower`, `MemberNode.lowerOnto` — types, signatures, members.
* `addAccessor` — a getter and a setter of one name make one property.
-/

namespace Interop

open Source

/-- What the names in a declaration refer to, and what it can be asked about its own text. -/
structure LoweringScope where
  table : SymbolTable
  file : Nat
  source : String
  /-- The namespaces around the declaration, below its module. -/
  names : List String
  /-- The type parameters that are declared around a type. -/
  typeParams : List String := []
  /-- The type of the object itself. -/
  this : Option Ty := none

/-- A computation that notes what it could not lower. -/
abbrev Lower := ReaderT LoweringScope (StateM (List Diagnostic))

namespace Lower

/-- Note a diagnostic. -/
def note (d : Diagnostic) : Lower Unit :=
  modify (· ++ [d])

/-- A type that is kept as written, because it has no counterpart. -/
def unsupported (span : Span) (construct : String) : Lower Ty := do
  note (.unsupported span construct)
  return .raw (span.slice (← read).source)

/-- A computation in which more type parameters are declared. -/
def declaring {α : Type} (names : List String) (work : Lower α) : Lower α :=
  withReader (fun scope => { scope with typeParams := names ++ scope.typeParams }) work

end Lower

/-! ## Names -/

/-- The type that a dotted name refers to: the namespaces around the declaration are tried from the
innermost outwards. -/
def LoweringScope.lookupType (scope : LoweringScope) (name : List String) : Option Nat :=
  (List.range (scope.names.length + 1)).reverse.findSome? fun depth =>
    scope.table.lookup (scope.names.take depth ++ name) scope.file SymbolKind.isType

/-- Whether a name is that of a type parameter. -/
def LoweringScope.isTypeParam (scope : LoweringScope) : List String → Bool
  | [name] => scope.typeParams.contains name
  | _ => false

/-- A reference by name, once its arguments are known. -/
def lowerName (name : List String) (args : List Ty) (span : Span) : Lower Ty := do
  let scope ← read
  match scope.lookupType name with
  | some id => return .nominal id args
  | none =>
    let text := ".".intercalate name
    if arrayTypes.contains text then return .array (args.head?.getD .any)
    else
      Lower.note (.unresolved span text)
      return .raw (span.slice scope.source)

/-! ## Accessors -/

/-- Whether a member is the property of a name. -/
def isPropertyOf (name : String) (isStatic : Bool) (m : Member) : Bool :=
  m.isStatic == isStatic && m.name == some name && m.isProperty

/-- A property that may be written. -/
def writable (m : Member) : Member :=
  match m.kind with
  | .property type optional _ => { m with kind := .property type optional false }
  | _ => m

/-- Change the first member with a property. -/
def modifyFirst (test : Member → Bool) (change : Member → Member) : List Member → List Member
  | [] => []
  | m :: rest => if test m then change m :: rest else m :: modifyFirst test change rest

/-- Add a getter or setter.  A getter alone makes a property that can only be read; a second accessor
of a name makes it writable. -/
def addAccessor (name : String) (type : Ty) (isSetter isStatic : Bool) (span : Span)
    (members : List Member) : List Member :=
  if members.any (isPropertyOf name isStatic) then
    modifyFirst (isPropertyOf name isStatic) writable members
  else members ++ [⟨some name, .property type false (!isSetter), isStatic, span⟩]

/-! ## Types -/

namespace Source

mutual

/-- The type that type syntax stands for. -/
def TypeNode.lower : TypeNode → Lower Ty
  | ⟨span, form⟩ => form.lower span

/-- The type that a form of type syntax stands for. -/
def TypeForm.lower (span : Span) : TypeForm → Lower Ty
  | .keyword kind => return .primitive kind
  | .this => do
    match (← read).this with
    | some type => return type
    | none => Lower.unsupported span "`this` type outside a class or interface"
  | .reference name args => do
    match name, (← read).isTypeParam name with
    | [param], true => return .param param
    | _, _ => lowerName name (← TypeNode.lowerAll args) span
  | .array element => return .array (← element.lower)
  | .tuple elements => return .tuple (← TypeNode.lowerAll elements)
  | .union members => return .union (← TypeNode.lowerAll members)
  | .intersection members => return .intersection (← TypeNode.lowerAll members)
  | .function signature => return .function (← signature.lower)
  | .shape members => return .shape (← MemberNode.lowerAllOnto [] members)
  | .literal kind => return .literal kind (span.slice (← read).source)
  | .readonly inner => inner.lower
  | .predicate _ => return .primitive .boolean
  | .unsupported construct _ => Lower.unsupported span construct.description

/-- The types that several types' syntax stands for. -/
def TypeNode.lowerAll : List TypeNode → Lower (List Ty)
  | [] => return []
  | type :: rest => do
    let type ← type.lower
    return type :: (← TypeNode.lowerAll rest)

/-- A type that may be left out, and is then `any`. -/
def TypeNode.lowerOption : Option TypeNode → Lower Ty
  | none => return .any
  | some type => type.lower

/-- A signature.  Its type parameters are declared in its parameters and result. -/
def SignatureNode.lower : SignatureNode → Lower Signature
  | ⟨typeParams, params, rest, result⟩ =>
    Lower.declaring (typeParams.map (·.name)) do
      let params ← ParamNode.lowerAll 0 params
      let rest ← ParamNode.lowerRest rest
      let result ← TypeNode.lowerOption result
      return ⟨typeParams.map (·.name), params ++ rest, result⟩

/-- Parameters, of which the first has a number.  One that takes a value apart is named by its
number. -/
def ParamNode.lowerAll (index : Nat) : List ParamNode → Lower (List Param)
  | [] => return []
  | ⟨binding, type, optional, _, _⟩ :: more => do
    let type ← TypeNode.lowerOption type
    let name := binding.name?.getD ("arg" ++ toString index)
    return ⟨name, type, optional, false⟩ :: (← ParamNode.lowerAll (index + 1) more)

/-- A rest parameter, if there is one.  It takes an array, by itself one of `any`. -/
def ParamNode.lowerRest : Option ParamNode → Lower (List Param)
  | none => return []
  | some ⟨binding, none, _, _, _⟩ => return [⟨binding.name?.getD "args", .array .any, false, true⟩]
  | some ⟨binding, some type, _, _, _⟩ => do
    let type ← type.lower
    return [⟨binding.name?.getD "args", type, false, true⟩]

/-- The type that the first of some parameters declares. -/
def ParamNode.lowerFirst : List ParamNode → Lower Ty
  | [] => return .any
  | ⟨_, type, _, _, _⟩ :: _ => TypeNode.lowerOption type

/-- What a getter gives, or a setter takes. -/
def SignatureNode.lowerAccessor (isSetter : Bool) : SignatureNode → Lower Ty
  | ⟨_, params, _, result⟩ =>
    if isSetter then ParamNode.lowerFirst params else TypeNode.lowerOption result

/-- Add a member of an object type or interface to those before it. -/
def MemberNode.lowerOnto (members : List Member) : MemberNode → Lower (List Member)
  | .property span key optional readonly type => do
    match key.name? with
    | none =>
      Lower.note (.unsupported span "computed property name")
      return members
    | some name =>
      let type ← TypeNode.lowerOption type
      return members ++ [⟨some name, .property type optional readonly, false, span⟩]
  | .method span key kind optional signature => do
    match key.name? with
    | none =>
      Lower.note (.unsupported span "computed method name")
      return members
    | some name =>
      match kind with
      | .method =>
        let signature ← signature.lower
        return members ++ [⟨some name, .method signature optional, false, span⟩]
      | .getter =>
        let type ← signature.lowerAccessor false
        return addAccessor name type false false span members
      | .setter =>
        let type ← signature.lowerAccessor true
        return addAccessor name type true false span members
  | .call span signature => do
    return members ++ [.ofCall (← signature.lower) span]
  | .construct span signature => do
    return members ++ [⟨none, .construct (← signature.lower), false, span⟩]
  | .index span isStatic keyName key value => do
    let key ← key.lower
    let value ← value.lower
    return members ++ [⟨none, .index ⟨[], [⟨keyName, key, false, false⟩], value⟩, isStatic, span⟩]

/-- Add members of an object type or interface to those before them. -/
def MemberNode.lowerAllOnto (members : List Member) : List MemberNode → Lower (List Member)
  | [] => return members
  | m :: rest => do
    let members ← m.lowerOnto members
    MemberNode.lowerAllOnto members rest

end

end Source

/-! ## Heritage -/

/-- A reference by name with type arguments; the arguments of a type parameter are not looked at. -/
def lowerReference (name : List String) (args : List TypeNode) (span : Span) : Lower Ty := do
  match name, (← read).isTypeParam name with
  | [param], true => return .param param
  | _, _ => lowerName name (← TypeNode.lowerAll args) span

/-- A base type.  One that is not written as a name is kept as written. -/
def lowerBase (name : Option (List String)) (args : List TypeNode) (span : Span) : Lower Ty := do
  match name with
  | some name => lowerReference name args span
  | none => return .raw (span.slice (← read).source)

/-- The types that an interface extends or a class implements. -/
def lowerHeritage (nodes : List HeritageNode) : Lower (List Ty) :=
  nodes.mapM fun node => lowerBase node.name node.args node.span

/-! ## Classes -/

/-- Add an element of a class to the members before it.  Private elements are not part of what can be
used, nor are those without a name. -/
def lowerElementOnto (self : Ty) (members : List Member) : ClassElement → Lower (List Member)
  | .method span key kind isStatic optional isPrivate f => do
    match isPrivate, key.name? with
    | false, some name =>
      match kind with
      | .constructor =>
        let signature ← { f.signature with result := none }.lower
        return members ++ [⟨none, .construct { signature with result := self }, false, span⟩]
      | .method .method =>
        let signature ← f.signature.lower
        return members ++ [⟨some name, .method signature optional, isStatic, span⟩]
      | .method .getter =>
        let type ← f.signature.lowerAccessor false
        return addAccessor name type false isStatic span members
      | .method .setter =>
        let type ← f.signature.lowerAccessor true
        return addAccessor name type true isStatic span members
    | _, _ => return members
  | .property span key isStatic optional readonly isPrivate type _ => do
    match isPrivate, key.name? with
    | false, some name =>
      let type ← TypeNode.lowerOption type
      return members ++ [⟨some name, .property type optional readonly, isStatic, span⟩]
    | _, _ => return members
  | .index m => m.lowerOnto members
  | .accessor .. => return members
  | .initializer _ => return members

/-- The members of a class. -/
def lowerElements (self : Ty) (elements : List ClassElement) : Lower (List Member) :=
  elements.foldlM (lowerElementOnto self) []

end Interop
