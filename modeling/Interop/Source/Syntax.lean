import Interop.Type.Basic

/-!
# Syntax trees

What a file declares, with the places of its parts.  Types and the signatures in them are kept in
full; of expressions and function bodies only what decides whether a file is well formed.

* `TypeNode`, `SignatureNode`, `ParamNode`, `MemberNode` — types.
* `Expr`, `FunctionNode`, `ClassNode`, `Declaration`, `Statement` — everything else.
-/

namespace Interop.Source

/-! ## Names -/

/-- The name of a property, as it is written. -/
inductive PropertyKey where
  | identifier (name : String)
  /-- A string, also one in square brackets. -/
  | string (value : String)
  | number
  /-- A private name. -/
  | hash (name : String)
  /-- Any other expression in square brackets. -/
  | computed
  deriving DecidableEq, Repr, Inhabited

/-- The name of a property, where it is known and public. -/
def PropertyKey.name? : PropertyKey → Option String
  | .identifier name => some name
  | .string value => some value
  | .number | .hash _ | .computed => none

/-- What a declaration or parameter binds. -/
inductive Binding where
  | name (name : String)
  /-- A pattern that takes a value apart, and the names in it. -/
  | pattern (names : List String)
  deriving DecidableEq, Repr, Inhabited

namespace Binding

/-- The name, where there is only one. -/
def name? : Binding → Option String
  | .name n => some n
  | .pattern _ => none

/-- All names that are bound. -/
def names : Binding → List String
  | .name n => [n]
  | .pattern ns => ns

end Binding

/-- Which of the forms of a method a member has. -/
inductive MethodKind where
  | method
  | getter
  | setter
  deriving DecidableEq, Repr, Inhabited

/-! ## Types -/

/-- Forms of types that have no counterpart in the type language. -/
inductive Construct where
  | keyof
  | uniqueSymbol
  | conditional
  | mapped
  | indexedAccess
  | typeQuery
  | templateLiteral
  | importType
  | constructorType
  | infer
  /-- A label and dots in a tuple, and the keyword for types the compiler provides. -/
  | otherForm
  /-- A type in the notation of documentation comments. -/
  | documentation
  deriving DecidableEq, Repr, Inhabited

/-- How a construct is called in diagnostics. -/
def Construct.description : Construct → String
  | .keyof => "keyof type"
  | .uniqueSymbol => "unique symbol type"
  | .conditional => "conditional type"
  | .mapped => "mapped type"
  | .indexedAccess => "indexed access type"
  | .typeQuery => "typeof type"
  | .templateLiteral => "template literal type"
  | .importType => "import type"
  | .constructorType => "constructor type"
  | .infer => "infer type"
  | .otherForm | .documentation => "type form"

mutual

/-- A type and its place. -/
structure TypeNode where
  span : Span
  form : TypeForm

/-- The forms of types. -/
inductive TypeForm where
  | keyword (kind : Primitive)
  /-- The type of the object itself. -/
  | this
  /-- A name, with dots, and type arguments. -/
  | reference (name : List String) (args : List TypeNode)
  | array (element : TypeNode)
  /-- The elements without labels, dots and question marks. -/
  | tuple (elements : List TypeNode)
  | union (members : List TypeNode)
  | intersection (members : List TypeNode)
  | function (signature : SignatureNode)
  | shape (members : List MemberNode)
  /-- A literal, whose text is that of its place. -/
  | literal (kind : LiteralKind)
  | readonly (inner : TypeNode)
  /-- A statement about the type of an argument. -/
  | predicate (parts : List TypeNode)
  | unsupported (construct : Construct) (parts : List TypeNode)

/-- A type parameter and the types in its bounds. -/
structure TypeParamNode where
  name : String
  bounds : List TypeNode

/-- Type parameters, parameters and result of a call.  A parameter that stands for the object itself
is not among the parameters. -/
structure SignatureNode where
  typeParams : List TypeParamNode
  params : List ParamNode
  rest : Option ParamNode
  result : Option TypeNode

/-- A parameter. -/
structure ParamNode where
  binding : Binding
  type : Option TypeNode
  optional : Bool
  hasDefault : Bool
  /-- Whether the parameter declares a property of its class. -/
  isProperty : Bool

/-- A member of an object type or interface. -/
inductive MemberNode where
  | property (span : Span) (key : PropertyKey) (optional readonly : Bool)
      (type : Option TypeNode)
  | method (span : Span) (key : PropertyKey) (kind : MethodKind) (optional : Bool)
      (signature : SignatureNode)
  | call (span : Span) (signature : SignatureNode)
  | construct (span : Span) (signature : SignatureNode)
  | index (span : Span) (isStatic : Bool) (keyName : String) (key value : TypeNode)

end

instance : Inhabited TypeNode := ⟨⟨Span.none, .this⟩⟩

namespace SignatureNode

/-- The names of the type parameters. -/
def typeParamNames (s : SignatureNode) : List String :=
  s.typeParams.map (·.name)

/-- All parameters, the rest parameter last. -/
def allParams (s : SignatureNode) : List ParamNode :=
  s.params ++ s.rest.toList

end SignatureNode

/-! ## Heritage, enums and aliases -/

/-- A type that an interface extends or a class implements.  The name is missing where something else
than a name is written. -/
structure HeritageNode where
  span : Span
  name : Option (List String)
  args : List TypeNode

/-- An interface. -/
structure InterfaceNode where
  span : Span
  name : String
  typeParams : List TypeParamNode
  bases : List HeritageNode
  members : List MemberNode

/-- A type alias. -/
structure AliasNode where
  span : Span
  name : String
  typeParams : List TypeParamNode
  body : TypeNode

/-- A value of an enum; the name is missing where it is computed. -/
structure EnumMemberNode where
  span : Span
  name : Option String
  /-- Whether the value is written as a string or template. -/
  isText : Bool

/-- An enum. -/
structure EnumNode where
  span : Span
  name : String
  /-- Whether its values are put in the place of its names. -/
  isConst : Bool
  members : List EnumMemberNode

/-! ## Expressions and statements -/

/-- How variables are declared. -/
inductive VariableKind where
  | var
  | lexical
  | const
  deriving DecidableEq, Repr, Inhabited

/-- The forms of a function in a class. -/
inductive ClassMethodKind where
  | constructor
  | method (kind : MethodKind)
  deriving DecidableEq, Repr, Inhabited

/-- The name of a namespace or module. -/
inductive ModuleName where
  | identifier (name : String)
  | string (value : String)
  deriving DecidableEq, Repr, Inhabited

mutual

/-- An expression. -/
inductive Expr where
  | identifier (span : Span) (name : String)
  /-- A property of an object, by its name. -/
  | member (span : Span) (object : Expr) (name : String)
  | string (span : Span) (value : String)
  | template (span : Span) (parts : List Expr)
  | function (function : FunctionNode)
  | klass (klass : ClassNode)
  /-- Any other expression, by its parts. -/
  | compound (span : Span) (parts : List Expr)

/-- A function, with or without a body. -/
structure FunctionNode where
  span : Span
  name : Option String
  signature : SignatureNode
  body : Option (List Statement)

/-- A class. -/
structure ClassNode where
  span : Span
  name : Option String
  typeParams : List TypeParamNode
  superclass : Option Expr
  superArgs : List TypeNode
  interfaces : List HeritageNode
  elements : List ClassElement

/-- An element of a class body. -/
inductive ClassElement where
  | method (span : Span) (key : PropertyKey) (kind : ClassMethodKind)
      (isStatic optional isPrivate : Bool) (function : FunctionNode)
  | property (span : Span) (key : PropertyKey) (isStatic optional readonly isPrivate : Bool)
      (type : Option TypeNode) (value : Option Expr)
  | index (member : MemberNode)
  /-- A property with an accessor of its own. -/
  | accessor (span : Span) (type : Option TypeNode) (value : Option Expr)
  /-- Statements that run when the class is made. -/
  | initializer (body : List Statement)

/-- One variable of a declaration. -/
structure VariableNode where
  span : Span
  binding : Binding
  type : Option TypeNode
  value : Option Expr

/-- A declaration. -/
inductive Declaration where
  | interface (node : InterfaceNode)
  | klass (node : ClassNode)
  | alias (node : AliasNode)
  | enum (node : EnumNode)
  | function (node : FunctionNode)
  | variables (kind : VariableKind) (nodes : List VariableNode)
  | nameSpace (span : Span) (name : ModuleName) (body : List Statement)

/-- A statement. -/
inductive Statement where
  | declaration (exported : Bool) (declaration : Declaration)
  /-- Declarations added to the global scope from inside a module. -/
  | global (body : List Statement)
  /-- The one value that a module stands for. -/
  | exportAssignment (value : Expr)
  /-- Any other export. -/
  | otherExport (parts : List Expr)
  /-- The names that an import brings in. -/
  | imports (names : List String)
  | block (body : List Statement)
  /-- Any other statement, by the expressions and statements in it. -/
  | compound (parts : List Expr) (bodies : List Statement)

end

namespace Expr

instance : Inhabited Expr := ⟨.compound Span.none []⟩

/-- The place of an expression. -/
def span : Expr → Span
  | .identifier span _ | .member span _ _ | .string span _ | .template span _ | .compound span _ =>
    span
  | .function f => f.span
  | .klass c => c.span

/-- The dotted name that an expression is, if it is one. -/
def dottedName? : Expr → Option (List String)
  | .identifier _ name => some [name]
  | .member _ object name => object.dottedName?.map (· ++ [name])
  | _ => none

end Expr

instance : Inhabited Statement := ⟨.block []⟩

/-- A file. -/
structure Program where
  body : List Statement

end Interop.Source
