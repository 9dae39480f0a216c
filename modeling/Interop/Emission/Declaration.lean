import Interop.Emission.Member

/-!
# Declarations of a library

Every function, variable, class, interface and enum of a file becomes a declaration at the top of its
library.  Namespaces are flattened, and aliases leave nothing, since they are replaced wherever they
are used.

* `functionItems`, `variableItems`, `classItem` — the declarations of a symbol.
* `scopeItems` — those of all symbols in a namespace, or at the top of a file.
-/

namespace Interop

/-- A declaration at the top of a library, and those in its body. -/
structure Item where
  decl : OutputDecl
  members : List OutputDecl := []
  deriving DecidableEq, Repr, Inhabited

/-! ## Functions and variables -/

/-- A declaration of a function, getter or setter at the top of a library. -/
def OutputDecl.ofFunction (header tag : String) (docs : List String) : OutputDecl :=
  { kind := .function, header, metadata := [tag], docs }

/-- The declaration of a function whose overloads are merged.  The overloads it stands for are
documented under the function's name. -/
def functionItem (id : Nat) (symbol : Symbol) (name : Option String) (group : MemberGroup) :
    Work (List Item) := do
  match group.effective.signature? with
  | none => return []
  | some sig =>
    modify (·.pointAt group.effective.span)
    let sig ← SignatureText.of sig
    match name with
    | none => return [⟨.ofStub (functionHeader "" symbol.name sig), []⟩]
    | some name =>
      let tag := scriptTag (← Work.table) id symbol name
      return [⟨.ofFunction (functionHeader "" name sig) tag (group.docs.map (symbol.name ++ ·)), []⟩]

/-- The declarations of a function. -/
def functionItems (id : Nat) (symbol : Symbol) : Work (List Item) := do
  if symbol.callSignatures.isEmpty then
    throw (.structural symbol.span (.noSignature symbol.name))
  let name ← Work.nameOf id
  let groups ← mergeMembers symbol.members
  return (← groups.mapM (functionItem id symbol name)).flatten

/-- The type of a variable, and whether it is constant. -/
def Symbol.variableType? (symbol : Symbol) : Option (Ty × Bool) :=
  symbol.members.findSome? fun m => match m.kind with
    | .property type _ readonly => some (type, readonly)
    | _ => none

/-- The declarations of a variable: a getter, and a setter unless it is constant. -/
def variableItems (id : Nat) (symbol : Symbol) : Work (List Item) := do
  match symbol.variableType? with
  | none => throw (.structural symbol.span (.noType symbol.name))
  | some (type, readonly) =>
    let type ← declaredType type
    match ← Work.nameOf id with
    | none => return [⟨.ofStub (getterHeader "" type symbol.name), []⟩]
    | some name =>
      let tag := scriptTag (← Work.table) id symbol name
      let getter : Item := ⟨.ofFunction (getterHeader "" type name) tag [], []⟩
      let setter : Item := ⟨.ofFunction (setterHeader "" type name) tag [], []⟩
      return if readonly then [getter] else [getter, setter]

/-! ## Classes -/

/-- The keyword that a class, interface or enum is declared with. -/
def classKeyword (kind : SymbolKind) : String :=
  if kind == .interface then "abstract class" else "class"

/-- The base types of a class, rendered. -/
structure Heritage where
  superclass : Option String := none
  interfaces : List String := []
  /-- What is said about bases that cannot be written. -/
  notes : List String := []
  deriving DecidableEq, Repr, Inhabited

/-- Whether a type can be extended or implemented: it is a class or interface that is declared in
the input and has a legal name. -/
def isBase (table : SymbolTable) : Ty → Bool
  | .nominal id _ =>
    match table.get? id with
    | some symbol => symbol.externalName.isNone && symbol.hasLegalName &&
        (symbol.kind == .klass || symbol.kind == .interface)
    | none => false
  | _ => false

/-- Add the base at a place.  The superclass is the first base. -/
def Heritage.add (symbol : Symbol) (h : Heritage) (base : Ty) (index : Nat) : Work Heritage := do
  let table ← Work.table
  if isBase table base then
    let text ← declaredType base
    if index == 0 && symbol.hasSuperclass && symbol.kind == .klass then
      return { h with superclass := some text }
    else return { h with interfaces := h.interfaces ++ [text] }
  else return { h with notes := h.notes ++ ["Base type `" ++ base.text table ++
    "` is not representable."] }

/-- The base types of a symbol. -/
def Heritage.of (symbol : Symbol) : Work Heritage :=
  symbol.bases.zipIdx.foldlM (fun h (base, index) => h.add symbol base index) {}

/-- The first line of a class. -/
def classHeader (symbol : Symbol) (name : String) (h : Heritage) : String :=
  classKeyword symbol.kind ++ " " ++ name ++ inAngles symbol.typeParams ++
    (h.superclass.map (" extends " ++ ·)).getD "" ++
    if h.interfaces.isEmpty then "" else " implements " ++ ", ".intercalate h.interfaces

/-- A class with its members.  An interface has no constructor that a script could call, so it is
anonymous. -/
def classBody (id : Nat) (symbol : Symbol) (name : String) : Work Item := do
  let heritage ← Heritage.of symbol
  let table ← Work.table
  let groups ← mergeMembers symbol.members
  let members ← groups.mapM (memberDecls name)
  return ⟨{ kind := .klass, header := classHeader symbol name heritage,
            metadata := scriptTag table id symbol name ::
              if symbol.kind == .interface then ["@anonymous"] else [],
            docs := heritage.notes }, members.flatten⟩

/-- The declaration of a class, interface or enum. -/
def classItem (id : Nat) (symbol : Symbol) : Work Item := do
  match ← Work.nameOf id with
  | none => return ⟨.ofStub (classKeyword symbol.kind ++ " " ++ symbol.name ++ " \x7b\x7d"), []⟩
  | some name => Work.inScope symbol.typeParams (classBody id symbol name)

/-! ## Scopes -/

/-- The declarations of a symbol, given those of the symbols in a namespace. -/
def symbolItems (inside : Nat → Work (List Item)) (id : Nat) (symbol : Symbol) :
    Work (List Item) := do
  modify (·.pointAt symbol.span)
  match symbol.kind with
  | .nameSpace => inside id
  | .klass | .interface | .enum => return [← classItem id symbol]
  | .function => functionItems id symbol
  | .variable => variableItems id symbol
  | .alias | .typeParameter => return []

/-- The declarations of all symbols of a file that stand in a namespace, or at the top of the file.
The number of levels bounds how deep namespaces may stand inside one another. -/
def scopeItems : (levels : Nat) → (file : Nat) → (parent : Option Nat) → Work (List Item)
  | 0, _, _ => return []
  | levels + 1, file, parent => do
    let table ← Work.table
    let items ← (table.children file parent).mapM fun id => do
      match table.get? id with
      | some symbol =>
        symbolItems (fun inner => scopeItems levels file (some inner)) id symbol
      | none => return []
    return items.flatten

/-- The declarations of a file.  A namespace is registered before what it contains, so no chain of
them is longer than the table. -/
def fileItems (file : Nat) : Work (List Item) := do
  scopeItems ((← Work.table).size + 1) file none

end Interop
