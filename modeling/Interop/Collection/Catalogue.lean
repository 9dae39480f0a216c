import Interop.Collection.Lowering

/-!
# Collecting declarations

All declarations of all files go into one symbol table, in two passes: first every declaration gets
its symbol, so that types may refer forwards and to other files; then its types are lowered.

* `Catalogue.declare` — the symbol of a declaration; a class and the interfaces of its name share one.
* `declareAll`, `defineAll` — the two passes over the statements of a file.
-/

namespace Interop

open Source

/-! ## The catalogue -/

/-- The symbol table, and which symbol each declaration belongs to. -/
structure Catalogue where
  table : SymbolTable := .platform
  declared : List ((DeclPath × SymbolKind) × Nat) := []

/-- Where the statements being read stand. -/
structure Place where
  file : Nat
  module : String
  source : String
  /-- The namespace around the statements. -/
  parent : Option Nat := none
  /-- The names of the namespaces around them, below the module. -/
  names : List String := []

namespace Place

/-- The path of a declaration. -/
def path (place : Place) (name : String) (kind : SymbolKind) : DeclPath :=
  ⟨place.module :: place.names ++ [name], kind.role⟩

/-- The place inside a namespace. -/
def enter (place : Place) (id : Nat) (name : String) : Place :=
  { place with parent := some id, names := place.names ++ [name] }

end Place

namespace Catalogue

/-- The symbol of a declaration. -/
def find? (c : Catalogue) (path : DeclPath) (kind : SymbolKind) : Option Nat :=
  c.declared.lookup (path, kind)

/-- Remember the symbol of a declaration. -/
def remember (c : Catalogue) (path : DeclPath) (kind : SymbolKind) (id : Nat) : Catalogue :=
  { c with declared := ((path, kind), id) :: c.declared }

/-- The kind whose declarations share a symbol with those of a kind. -/
def partner? : SymbolKind → Option SymbolKind
  | .klass => some .interface
  | .interface => some .klass
  | _ => none

/-- Register a new symbol for a declaration. -/
def register (c : Catalogue) (place : Place) (name : String) (kind : SymbolKind) (span : Span) :
    Catalogue × Nat :=
  let path := place.path name kind
  let symbol : Symbol := { name, kind, file := place.file, path, parent := place.parent, span }
  (({ c with table := c.table.push symbol } : Catalogue).remember path kind c.table.size,
    c.table.size)

/-- The symbol of a declaration, registered now unless the declaration belongs to one already.  A class
joins the interfaces of its name, and their symbol becomes a class. -/
def declare (c : Catalogue) (place : Place) (name : String) (kind : SymbolKind) (span : Span) :
    Catalogue × Nat :=
  let path := place.path name kind
  match c.find? path kind with
  | some id => (c, id)
  | none =>
    match (partner? kind).bind (c.find? path) with
    | some id =>
      let table := if kind == .klass then c.table.modify id fun s => { s with kind := .klass }
        else c.table
      (({ c with table } : Catalogue).remember path kind id, id)
    | none => c.register place name kind span

/-- Change the symbol with a number. -/
def modify (c : Catalogue) (id : Nat) (f : Symbol → Symbol) : Catalogue :=
  { c with table := c.table.modify id f }

end Catalogue

/-- The name under which a module's declarations are nested.  Those of a module that is named by a
string, and of the global one, belong to the scope around it. -/
def nestingName? : ModuleName → Option String
  | .identifier name => if name == "global" then none else some name
  | .string _ => none

/-! ## First pass -/

/-- The symbol of a declaration without statements inside. -/
def declareSimple (place : Place) (c : Catalogue) : Declaration → Catalogue
  | .interface node => (c.declare place node.name .interface node.span).1
  | .klass node =>
    match node.name with
    | some name => (c.declare place name .klass node.span).1
    | none => c
  | .alias node => (c.declare place node.name .alias node.span).1
  | .enum node => (c.declare place node.name .enum node.span).1
  | .function node =>
    match node.name with
    | some name => (c.declare place name .function node.span).1
    | none => c
  | .variables _ nodes =>
    nodes.foldl (fun c node => match node.binding.name? with
      | some name => (c.declare place name .variable node.span).1
      | none => c) c
  | .nameSpace .. => c

mutual

/-- Give every declaration of a statement its symbol. -/
def declareStatement (place : Place) (c : Catalogue) : Statement → Catalogue
  | .declaration _ d => declareDeclaration place c d
  | _ => c

/-- Give a declaration, and those inside it, their symbols. -/
def declareDeclaration (place : Place) (c : Catalogue) : Declaration → Catalogue
  | .nameSpace span name body =>
    match nestingName? name with
    | some name =>
      let (c, id) := c.declare place name .nameSpace span
      declareAll (place.enter id name) c body
    | none => declareAll place c body
  | .interface node => declareSimple place c (.interface node)
  | .klass node => declareSimple place c (.klass node)
  | .alias node => declareSimple place c (.alias node)
  | .enum node => declareSimple place c (.enum node)
  | .function node => declareSimple place c (.function node)
  | .variables kind nodes => declareSimple place c (.variables kind nodes)

/-- Give all declarations of statements their symbols. -/
def declareAll (place : Place) (c : Catalogue) : List Statement → Catalogue
  | [] => c
  | s :: rest => declareAll place (declareStatement place c s) rest

end

/-! ## Second pass -/

/-- The catalogue, and what could not be lowered so far. -/
structure Definition where
  catalogue : Catalogue
  notes : List Diagnostic := []

namespace Definition

/-- Note a diagnostic. -/
def note (d : Definition) (diagnostic : Diagnostic) : Definition :=
  { d with notes := d.notes ++ [diagnostic] }

/-- Lower something that a declaration says about its symbol, and change the symbol by it. -/
def lower {α : Type} (d : Definition) (place : Place) (typeParams : List String) (this : Option Ty)
    (id : Nat) (work : Lower α) (change : α → Symbol → Symbol) : Definition :=
  let scope : LoweringScope :=
    ⟨d.catalogue.table, place.file, place.source, place.names, typeParams, this⟩
  let (result, notes) := (work scope).run []
  ⟨d.catalogue.modify id (change result), d.notes ++ notes⟩

end Definition

/-- The type of a class or interface inside its own body. -/
def selfType (id : Nat) (typeParams : List String) : Ty :=
  .nominal id (typeParams.map .param)

/-- Define an interface.  The first one of a name that has type parameters decides on them. -/
def defineInterface (place : Place) (d : Definition) (id : Nat) (node : InterfaceNode) : Definition :=
  let typeParams := node.typeParams.map (·.name)
  d.lower place typeParams (some (selfType id typeParams)) id (do
      let members ← MemberNode.lowerAllOnto [] node.members
      return (members, ← lowerHeritage node.bases))
    fun (members, bases) s =>
      { s with typeParams := if s.typeParams.isEmpty then typeParams else s.typeParams,
               members := s.members ++ members, bases := s.bases ++ bases }

/-- The bases of a class: its superclass, then what it implements. -/
def lowerClassBases (node : ClassNode) : Lower (List Ty) := do
  let superclass ← node.superclass.toList.mapM fun e => lowerBase e.dottedName? node.superArgs e.span
  return superclass ++ (← lowerHeritage node.interfaces)

/-- Define a class.  A superclass stands before all other bases of the symbol. -/
def defineClass (place : Place) (d : Definition) (id : Nat) (node : ClassNode) : Definition :=
  let typeParams := node.typeParams.map (·.name)
  let self := selfType id typeParams
  d.lower place typeParams (some self) id (do
      let members ← lowerElements self node.elements
      return (members, ← lowerClassBases node))
    fun (members, bases) s =>
      let s := { s with typeParams, members := s.members ++ members }
      if node.superclass.isSome then { s with bases := bases ++ s.bases, hasSuperclass := true }
      else { s with bases := s.bases ++ bases }

/-- Define an alias. -/
def defineAlias (place : Place) (d : Definition) (id : Nat) (node : AliasNode) : Definition :=
  let typeParams := node.typeParams.map (·.name)
  d.lower place typeParams none id node.body.lower
    fun body s => { s with typeParams, aliased := some body }

/-- The values of an enum: strings where they are written as such, numbers otherwise. -/
def enumValues (nodes : List EnumMemberNode) : List Member :=
  nodes.filterMap fun node => node.name.map fun name =>
    ⟨some name, .property (.primitive (if node.isText then .string else .number)) false true, true,
      node.span⟩

/-- Define an enum.  Values whose names are computed are noted. -/
def defineEnum (d : Definition) (id : Nat) (node : EnumNode) : Definition :=
  let computed := node.members.filter (·.name.isNone)
  let notes := computed.map fun m => Diagnostic.unsupported m.span "computed enum member"
  ⟨d.catalogue.modify id fun s => { s with members := s.members ++ enumValues node.members },
    d.notes ++ notes⟩

/-- Define a function.  One with a body that follows overloads adds no signature. -/
def defineFunction (place : Place) (d : Definition) (id : Nat) (node : FunctionNode) : Definition :=
  let hasOverloads := ((d.catalogue.table.get? id).map fun s => !s.members.isEmpty).getD false
  if node.body.isSome && hasOverloads then d
  else d.lower place [] none id node.signature.lower
    fun signature s => { s with members := s.members ++ [.ofCall signature node.span] }

/-- Define a variable. -/
def defineVariable (place : Place) (readonly : Bool) (d : Definition) (node : VariableNode) :
    Definition :=
  match node.binding.name? with
  | none => d.note (.unsupported node.span "destructuring declaration")
  | some name =>
    match d.catalogue.find? (place.path name .variable) .variable with
    | none => d
    | some id => d.lower place [] none id (TypeNode.lowerOption node.type)
        fun type s => { s with members :=
          s.members ++ [⟨some name, .property type false readonly, false, node.span⟩] }

/-- Define the symbol of a name, if there is one. -/
def defineNamed (place : Place) (d : Definition) (name : Option String) (kind : SymbolKind)
    (define : Nat → Definition) : Definition :=
  match name.bind fun name => d.catalogue.find? (place.path name kind) kind with
  | some id => define id
  | none => d

/-- Define the symbol of a declaration without statements inside. -/
def defineSimple (place : Place) (d : Definition) : Declaration → Definition
  | .interface node => defineNamed place d (some node.name) .interface (defineInterface place d · node)
  | .klass node => defineNamed place d node.name .klass (defineClass place d · node)
  | .alias node => defineNamed place d (some node.name) .alias (defineAlias place d · node)
  | .enum node => defineNamed place d (some node.name) .enum (defineEnum d · node)
  | .function node => defineNamed place d node.name .function (defineFunction place d · node)
  | .variables kind nodes => nodes.foldl (defineVariable place (kind == .const)) d
  | .nameSpace .. => d

mutual

/-- Define the symbols of a statement. -/
def defineStatement (place : Place) (d : Definition) : Statement → Definition
  | .declaration _ declaration => defineDeclaration place d declaration
  | _ => d

/-- Define the symbol of a declaration, and those inside it. -/
def defineDeclaration (place : Place) (d : Definition) : Declaration → Definition
  | .nameSpace _ name body =>
    match nestingName? name with
    | some name =>
      match d.catalogue.find? (place.path name .nameSpace) .nameSpace with
      | some id => defineAll (place.enter id name) d body
      | none => d
    | none => defineAll place d body
  | .interface node => defineSimple place d (.interface node)
  | .klass node => defineSimple place d (.klass node)
  | .alias node => defineSimple place d (.alias node)
  | .enum node => defineSimple place d (.enum node)
  | .function node => defineSimple place d (.function node)
  | .variables kind nodes => defineSimple place d (.variables kind nodes)

/-- Define the symbols of statements. -/
def defineAll (place : Place) (d : Definition) : List Statement → Definition
  | [] => d
  | s :: rest => defineAll place (defineStatement place d s) rest

end

end Interop
