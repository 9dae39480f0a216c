import Interop.Rendering.Distinct
import Interop.Type.Text

/-!
# Rendering types

Every form of type has its text in the target.  What the target cannot express falls back to a wider
type, and the type as written becomes a note.

* `renderWithin` — render a type with a bound on how deep types may lie inside one another once
  aliases are expanded; a type that lies deeper fails with `Failure.exhausted`.
* `render` — the same with the bound that the program uses.
-/

namespace Interop

/-! ## Forms without parts -/

/-- The text of a keyword type. -/
def renderPrimitive (kind : Primitive) (o : RenderOptions) : Rendered :=
  match kind with
  | .number => .plain "num"
  | .string => .plain "String"
  | .boolean => .plain "bool"
  | .null => .plain nullText
  | .void | .undefined | .never => .plain (if o.insideTypeArgument then nullText else absentText)
  | .any | .unknown => .plain untypedText
  | .object => .plain "Object"
  | .symbol | .bigint => .annotated untypedText kind.keyword o

/-- The text of a literal type: the type its values have. -/
def renderLiteral (kind : LiteralKind) (text : String) (o : RenderOptions) : Rendered :=
  let base := match kind with
    | .string | .template => "String"
    | .number => "num"
    | .boolean => "bool"
    | .bigint => untypedText
  .annotated base text o

/-! ## Parameter lists -/

/-- Required parameters, then optional ones in square brackets. -/
def bracketed (required optional : List String) : String :=
  let head := ", ".intercalate required
  if optional.isEmpty then head
  else head ++ (if head.isEmpty then "" else ", ") ++ "[" ++ ", ".intercalate optional ++ "]"

/-- A parameter list from its parameters and whether each is optional.  What follows an optional
parameter is optional too. -/
def parameterList (params : List (Bool × String)) : String :=
  bracketed ((params.takeWhile fun p => !p.1).map (·.2)) ((params.dropWhile fun p => !p.1).map (·.2))

/-! ## Forms with parts -/

/-- A function type: result, type parameters and parameters. -/
def renderSignature (render : Renderer) (o : RenderOptions) (sig : Signature) : Work String := do
  let result := (← render sig.result o).withComment
  let params ← sig.params.mapM fun p => do
    return (p.optional, (← render p.type o).withComment)
  return result ++ " " ++ functionText ++ inAngles sig.typeParams ++ "(" ++ parameterList params ++ ")"

/-- The type of functions with a signature.  One that takes any number of arguments is no more than
a function. -/
def renderFunction (render : Renderer) (sig : Signature) (o : RenderOptions) : Work Rendered := do
  if sig.isVariadic then
    return .annotated functionText (sig.functionText (← Work.table)) o
  else
    return .plain (← Work.inScope sig.typeParams (renderSignature render o.nested sig))

/-- The types of arguments that an alias's parameters stand for; an argument that is missing is
`any`, and of two parameters of one name the last counts. -/
def aliasBindings (params : List String) (args : List Ty) : Bindings :=
  (params.zipIdx.map fun (name, i) => (name, args[i]?.getD .any)).reverse

/-- An alias is replaced by what it stands for. -/
def renderAlias (render : Renderer) (id : Nat) (symbol : Symbol) (args : List Ty)
    (o : RenderOptions) : Work Rendered := do
  match symbol.aliased with
  | none => return .annotated untypedText symbol.name o
  | some body =>
    if (← get).expanding.contains id then
      Work.reportUnsupported ("recursive type alias `" ++ symbol.name ++ "`")
      return .annotated untypedText symbol.name o
    else
      let body := if symbol.typeParams.isEmpty then body
        else body.substitute (aliasBindings symbol.typeParams args)
      Work.expanding id (render body { o with typeArguments := none })

/-- Whether the arguments of a type are left out: there is none, or a single one that says that
there is no value. -/
def omitsArguments : List Ty → Bool
  | [] => true
  | [ty] => ty.isAbsent
  | _ => false

/-- A declared type with its arguments. -/
def renderNominal (render : Renderer) (id : Nat) (symbol : Symbol) (args : List Ty)
    (o : RenderOptions) : Work Rendered := do
  match ← Work.nameOf id with
  | none => return .annotated untypedText symbol.name o
  | some name =>
    if omitsArguments args then return .plain name
    else
      let args ← args.mapM fun arg => do return (← render arg o.argument).withComment
      return .plain (name ++ inAngles args)

/-- A reference to a symbol. -/
def renderSymbol (render : Renderer) (id : Nat) (args : List Ty) (o : RenderOptions) :
    Work Rendered := do
  let table ← Work.table
  match table.get? id with
  | none =>
    let name := table.qualifiedName id
    Work.reportUnresolved name
    return .annotated untypedText name o
  | some symbol =>
    match symbol.kind with
    | .alias => renderAlias render id symbol args o
    | .klass | .interface | .enum => renderNominal render id symbol args o
    | .function | .variable | .typeParameter | .nameSpace =>
      let name := table.qualifiedName id
      Work.reportUnsupported ("`" ++ name ++ "` does not name a type")
      return .annotated untypedText name o

/-- An object type.  One that can only be called is a function; the target has no other. -/
def renderShape (render : Renderer) (members : List Member) (o : RenderOptions) : Work Rendered := do
  match members with
  | [⟨_, .call sig, _, _⟩] => renderFunction render sig o
  | _ => return .annotated untypedText ((Ty.shape members).text (← Work.table)) o

/-- What a union shows: the only distinct member that is a type of the target; of several, the first
one or none, as the policy says. -/
def shownMember (policy : UnionPolicy) : List Ty → Option Ty
  | [] => none
  | [ty] => some ty
  | ty :: _ :: _ => match policy with
    | .firstConcrete => some ty
    | .untyped => none

/-- A union or intersection, shown as one of its members.  Only that member is referred to. -/
def renderUnion (render : Renderer) (steps : Nat) (ty : Ty) (members : List Ty)
    (o : RenderOptions) : Work Rendered := do
  let merged ← DistinctTypes.ofTypes render steps members
  let display := { o with hideComment := true, typeArguments := none }
  let concrete ← merged.types.filterM fun member => do
    return (← Work.detached (render member display)).isConcrete
  let policy := o.policy.getD (← get).policy
  let text ← match shownMember policy concrete with
    | some member => do pure (← render member display).text
    | none => pure untypedText
  if members.length > 1 then return .annotated text (ty.text (← Work.table)) o
  else return .plain text

/-! ## All forms -/

/-- Render a type with a bound on the depth of rendering. -/
def renderWithin : Nat → Renderer
  | 0, _, _ => throw .exhausted
  | depth + 1, ty, o =>
    let render := renderWithin depth
    match ty with
    | .primitive kind => return renderPrimitive kind o
    | .nominal symbol args => renderSymbol render symbol args o
    | .alias symbol => renderSymbol render symbol (o.typeArguments.getD []) o
    | .function sig => renderFunction render sig o
    | .array element => do
      let element ← DistinctTypes.representative render depth [element]
      return .plain ("List<" ++ (← render element o.argument).withComment ++ ">")
    | .tuple elements => do
      let element ← DistinctTypes.representative render depth elements
      let text := (← render element { o.argument with hideComment := true }).withComment
      return .annotated ("List<" ++ text ++ ">") (ty.text (← Work.table)) o
    | .shape members => renderShape render members o
    | .param name =>
      match o.bindings.bind (·.lookup name) with
      | some bound => render bound o
      | none => do
        if (← get).inScope name then return .plain name
        else return .annotated untypedText name o
    | .literal kind text => return renderLiteral kind text o
    | .union members | .intersection members => renderUnion render depth ty members o
    | .raw text => return .annotated untypedText text o

/-- How deep types may lie inside one another once aliases are expanded. -/
def depthLimit : Nat := 1000000

/-- Render a type. -/
def render : Renderer :=
  renderWithin depthLimit

/-- The text that identifies a type. -/
def typeKey (ty : Ty) : Work String :=
  render.key ty

/-- The distinct components of several types. -/
def distinctTypes (tys : List Ty) : Work DistinctTypes :=
  DistinctTypes.ofTypes render depthLimit tys

end Interop
