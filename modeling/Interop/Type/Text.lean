import Interop.Symbol.Table

/-!
# Types in source syntax

What the target cannot express is kept in comments, written as in the source: `number|string`,
`[A, B]`, `(a: string, ...rest: any[]) => void`.

* `Ty.text` — a type; `Member.text` — a member; `Signature.functionText` — a function type.
-/

namespace Interop

/-- Put round brackets around a text. -/
def inParens (text : String) : String :=
  "(" ++ text ++ ")"

/-- A list of type parameters or arguments in angle brackets; nothing for an empty list. -/
def inAngles : List String → String
  | [] => ""
  | parts => "<" ++ ", ".intercalate parts ++ ">"

mutual

/-- A type in source syntax.  An operand of another type is put in brackets where it has to be. -/
def Ty.textAs (table : SymbolTable) (operand : Bool) : Ty → String
  | .primitive kind => kind.keyword
  | .nominal symbol args => table.displayName symbol ++ inAngles (Ty.texts table false args)
  | .alias symbol => table.displayName symbol
  | .function signature =>
    let text := signature.textWith table " => "
    if operand then inParens text else text
  | .array element => element.textAs table true ++ "[]"
  | .tuple elements => "[" ++ ", ".intercalate (Ty.texts table false elements) ++ "]"
  | .shape [] => "\x7b\x7d"
  | .shape (m :: ms) => "\x7b " ++ "; ".intercalate (m.text table :: Member.texts table ms) ++ " \x7d"
  | .param name => name
  | .literal _ text => text
  | .union members =>
    let text := "|".intercalate (Ty.texts table true members)
    if operand then inParens text else text
  | .intersection members =>
    let text := "&".intercalate (Ty.texts table true members)
    if operand then inParens text else text
  | .raw text => text

/-- The texts of several types. -/
def Ty.texts (table : SymbolTable) (operand : Bool) : List Ty → List String
  | [] => []
  | ty :: tys => ty.textAs table operand :: Ty.texts table operand tys

/-- A signature, with an arrow or a colon before its result. -/
def Signature.textWith (table : SymbolTable) (arrow : String) : Signature → String
  | ⟨typeParams, params, result⟩ =>
    inAngles typeParams ++ inParens (", ".intercalate (Param.texts table params)) ++ arrow ++
      result.textAs table false

/-- A parameter.  A rest parameter has dots in front and no question mark. -/
def Param.text (table : SymbolTable) : Param → String
  | ⟨name, type, optional, rest⟩ =>
    (if rest then "..." else "") ++ name ++ (if optional && !rest then "?" else "") ++ ": " ++
      type.textAs table false

/-- The texts of several parameters. -/
def Param.texts (table : SymbolTable) : List Param → List String
  | [] => []
  | p :: ps => p.text table :: Param.texts table ps

/-- A member without its modifiers, under a name. -/
def MemberKind.text (table : SymbolTable) (name : String) : MemberKind → String
  | .property type optional readonly =>
    (if readonly then "readonly " else "") ++ name ++ (if optional then "?" else "") ++ ": " ++
      type.textAs table false
  | .method signature optional =>
    name ++ (if optional then "?" else "") ++ signature.textWith table ": "
  | .call signature => signature.textWith table ": "
  | .construct signature => "new " ++ signature.textWith table ": "
  | .index ⟨_, params, result⟩ =>
    "[" ++ ", ".intercalate (Param.texts table params) ++ "]: " ++ result.textAs table false
  | .nested symbol => table.qualifiedName symbol

/-- A member as a declaration of it would read. -/
def Member.text (table : SymbolTable) : Member → String
  | ⟨name, kind, isStatic, _⟩ =>
    (if isStatic then "static " else "") ++ kind.text table (name.getD "")

/-- The texts of several members. -/
def Member.texts (table : SymbolTable) : List Member → List String
  | [] => []
  | m :: ms => m.text table :: Member.texts table ms

end

/-- A type in source syntax. -/
def Ty.text (table : SymbolTable) (ty : Ty) : String :=
  ty.textAs table false

/-- A function type in source syntax. -/
def Signature.functionText (table : SymbolTable) (s : Signature) : String :=
  s.textWith table " => "

end Interop
