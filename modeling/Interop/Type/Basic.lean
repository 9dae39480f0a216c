import Interop.Span

/-!
# The type language

Types as they stand in declarations, once names have been resolved.  A declared type is referred to
by the number of its symbol, so a type is read together with a symbol table.

* `Ty`, `Signature`, `Param`, `Member` — types, call signatures, their parameters, and the members
  of shapes and classes; they contain one another.
* `Param.argumentType` — the type of one argument, also for a rest parameter.
-/

namespace Interop

/-- The keyword types. -/
inductive Primitive where
  | number
  | string
  | boolean
  | null
  | undefined
  | void
  | never
  | any
  | unknown
  | object
  | symbol
  | bigint
  deriving DecidableEq, Repr, Inhabited

namespace Primitive

/-- The keyword of a primitive type. -/
def keyword : Primitive → String
  | .number => "number"
  | .string => "string"
  | .boolean => "boolean"
  | .null => "null"
  | .undefined => "undefined"
  | .void => "void"
  | .never => "never"
  | .any => "any"
  | .unknown => "unknown"
  | .object => "object"
  | .symbol => "symbol"
  | .bigint => "bigint"

/-- Every primitive type. -/
def all : List Primitive :=
  [.number, .string, .boolean, .null, .undefined, .void, .never, .any, .unknown, .object, .symbol,
    .bigint]

/-- The primitive type with a given keyword. -/
def ofKeyword? (word : String) : Option Primitive :=
  all.find? fun p => p.keyword == word

/-- `void`, `undefined` and `never` all say that there is no value. -/
def isAbsent : Primitive → Bool
  | .void | .undefined | .never => true
  | _ => false

end Primitive

/-- The forms of literal types. -/
inductive LiteralKind where
  | string
  | number
  | boolean
  | bigint
  | template
  deriving DecidableEq, Repr, Inhabited

/-! ## Types -/

mutual

/-- A type. -/
inductive Ty where
  /-- A keyword type. -/
  | primitive (kind : Primitive)
  /-- A declared type with the arguments given to it. -/
  | nominal (symbol : Nat) (args : List Ty)
  /-- The type of functions with a signature. -/
  | function (signature : Signature)
  | array (element : Ty)
  | tuple (elements : List Ty)
  /-- An object type given by its members. -/
  | shape (members : List Member)
  /-- An alias whose arguments are supplied where it is rendered. -/
  | alias (symbol : Nat)
  /-- A type parameter. -/
  | param (name : String)
  /-- A literal, as written. -/
  | literal (kind : LiteralKind) (text : String)
  | union (members : List Ty)
  | intersection (members : List Ty)
  /-- What could not be resolved, as written. -/
  | raw (text : String)

/-- The type parameters, parameters and result of a call. -/
structure Signature where
  typeParams : List String
  params : List Param
  result : Ty

/-- One parameter of a signature. -/
structure Param where
  name : String
  type : Ty
  optional : Bool
  /-- Whether the parameter takes all remaining arguments; its type is then that of their array. -/
  rest : Bool

/-- What a member is. -/
inductive MemberKind where
  | property (type : Ty) (optional readonly : Bool)
  | method (signature : Signature) (optional : Bool)
  /-- The object can be called. -/
  | call (signature : Signature)
  /-- The object can be constructed from. -/
  | construct (signature : Signature)
  /-- The object can be indexed. -/
  | index (signature : Signature)
  /-- A declaration inside the class. -/
  | nested (symbol : Nat)

/-- A member of a shape, class, interface, enum, function or variable. -/
structure Member where
  name : Option String
  kind : MemberKind
  isStatic : Bool
  span : Span

end

namespace Ty

/-- The type that says nothing. -/
def any : Ty := .primitive .any

/-- The result of a call without one. -/
def void : Ty := .primitive .void

instance : Inhabited Ty := ⟨any⟩

/-- Whether a type says that there is no value. -/
def isAbsent : Ty → Bool
  | .primitive kind => kind.isAbsent
  | _ => false

/-- The union of types, without a wrapper around a single one; no type gives nothing. -/
def ofUnion : List Ty → Option Ty
  | [] => none
  | [ty] => some ty
  | tys => some (.union tys)

end Ty

instance : Inhabited Signature := ⟨⟨[], [], .any⟩⟩

instance : Inhabited Param := ⟨⟨"", .any, false, false⟩⟩

instance : Inhabited Member := ⟨⟨none, .nested 0, false, Span.none⟩⟩

/-- The type of one argument: the element type for a rest parameter of array type. -/
def Param.argumentType (p : Param) : Ty :=
  match p.rest, p.type with
  | true, .array element => element
  | _, ty => ty

/-- Whether a signature takes any number of arguments. -/
def Signature.isVariadic (s : Signature) : Bool :=
  s.params.any (·.rest)

/-- The signature a member carries. -/
def MemberKind.signature? : MemberKind → Option Signature
  | .method s _ | .call s | .construct s | .index s => some s
  | .property .. | .nested _ => none

namespace Member

/-- The signature a member carries. -/
def signature? (m : Member) : Option Signature :=
  m.kind.signature?

/-- Whether a member is a property. -/
def isProperty (m : Member) : Bool :=
  m.kind matches .property ..

/-- A call signature as a member. -/
def ofCall (s : Signature) (span : Span) : Member :=
  ⟨none, .call s, false, span⟩

end Member

end Interop
