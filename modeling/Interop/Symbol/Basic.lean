import Interop.Name.Path
import Interop.Type.Basic

/-!
# Symbols

A symbol is one declaration, or several that merge into one.
-/

namespace Interop

/-- What a symbol declares. -/
inductive SymbolKind where
  | klass
  | interface
  | alias
  | enum
  | function
  | variable
  | typeParameter
  | nameSpace
  deriving DecidableEq, Repr, Inhabited

namespace SymbolKind

/-- Whether the symbol can stand in the place of a type. -/
def isType : SymbolKind → Bool
  | .klass | .interface | .alias | .enum | .typeParameter => true
  | .function | .variable | .nameSpace => false

/-- Whether declarations of this kind stand in the output under a name of their own. -/
def isEmitted : SymbolKind → Bool
  | .klass | .interface | .enum | .function | .variable => true
  | .alias | .typeParameter | .nameSpace => false

/-- The role in which a declaration of this kind is named. -/
def role : SymbolKind → NameRole
  | .function | .variable => .value
  | _ => .type

end SymbolKind

/-- The file number of symbols that belong to the platform and not to any input. -/
def ambientFile : Nat := 4294967295

/-- A declaration. -/
structure Symbol where
  name : String
  kind : SymbolKind
  file : Nat
  /-- The namespace around the declaration. -/
  parent : Option Nat := none
  path : DeclPath
  typeParams : List String := []
  /-- What an alias stands for. -/
  aliased : Option Ty := none
  /-- Fields, methods and signatures of a class or interface; the call signatures of a function;
  the one property of a variable; the values of an enum. -/
  members : List Member := []
  /-- The superclass first, if there is one, then the other base types. -/
  bases : List Ty := []
  /-- Whether the first base is a superclass. -/
  hasSuperclass : Bool := false
  /-- The name of a platform type that exists in the target already. -/
  externalName : Option String := none
  span : Span := Span.none

namespace Symbol

/-- A platform type and the name it has in the target. -/
def external (name target : String) : Symbol :=
  { name, kind := .klass, file := ambientFile, path := ⟨[name], .type⟩, externalName := some target }

instance : Inhabited Symbol := ⟨external "" ""⟩

/-- Whether the symbol belongs to the platform. -/
def isAmbient (s : Symbol) : Bool :=
  s.file == ambientFile

/-- Whether the declared name can be spelled in the target, escaped if need be. -/
def hasLegalName (s : Symbol) : Bool :=
  Identifier.validate s.name s.path.role != .unusable

/-- The name of the symbol as it is looked up: platform types by their whole path, all others by
their path without the module. -/
def scopedName (s : Symbol) : List String :=
  if s.isAmbient then s.path.segments else s.path.segments.drop 1

/-- The scoped name with dots. -/
def qualifiedName (s : Symbol) : String :=
  ".".intercalate s.scopedName

/-- The members that are properties. -/
def properties (s : Symbol) : List Member :=
  s.members.filter (·.isProperty)

/-- The call signatures declared on the symbol. -/
def callSignatures (s : Symbol) : List Signature :=
  s.members.filterMap fun m => match m.kind with
    | .call signature => some signature
    | _ => none

/-- The construct signatures declared on the symbol. -/
def constructSignatures (s : Symbol) : List Signature :=
  s.members.filterMap fun m => match m.kind with
    | .construct signature => some signature
    | _ => none

end Symbol

end Interop
