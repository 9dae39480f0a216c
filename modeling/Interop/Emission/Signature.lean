import Interop.Overload.Group
import Interop.Outline

/-!
# The parts of a declaration

What declarations of all kinds are put together from.

* `SignatureText.of` — the result, type parameters and parameters of a function.
* `scriptTag` — the metadata that ties a declaration to the script's own name for it.
* `OutputDecl.ofStub` — what stands in the place of a declaration without a legal name.
-/

namespace Interop

/-- The text of a type in a declaration. -/
def declaredType (ty : Ty) : Work String := do
  return (← render ty {}).withComment

/-! ## Signatures -/

/-- A signature as it is declared. -/
structure SignatureText where
  result : String
  /-- The type parameters in angle brackets, or nothing. -/
  generics : String
  /-- The parameters without the round brackets. -/
  params : String
  deriving DecidableEq, Repr, Inhabited

namespace SignatureText

/-- The name of a parameter; one without a legal name is named by its place. -/
def paramName (index : Nat) (p : Param) : String :=
  (Identifier.escape p.name .value).getD ("arg" ++ toString index)

/-- A parameter, and whether it may be left out.  A rest parameter takes at most one argument. -/
def param (p : Param) (index : Nat) : Work (Bool × String) := do
  let type ← declaredType p.argumentType
  return (p.optional || p.rest, type ++ " " ++ paramName index p)

/-- The text of a signature whose type parameters are in scope, if they are to be. -/
def parts (sig : Signature) (generics : String) : Work SignatureText := do
  let result ← declaredType sig.result
  let params ← sig.params.zipIdx.mapM fun (p, index) => param p index
  return ⟨result, generics, parameterList params⟩

/-- A signature of a function that declares its own type parameters. -/
def of (sig : Signature) : Work SignatureText :=
  Work.inScope sig.typeParams (parts sig (inAngles sig.typeParams))

/-- A signature of a constructor or operator, which declares no type parameters. -/
def withoutGenerics (sig : Signature) : Work SignatureText :=
  parts sig ""

end SignatureText

/-! ## Metadata -/

/-- The metadata with the name that a script uses. -/
def scriptName (name : String) : String :=
  "@JS(\"" ++ name ++ "\")"

/-- The metadata of a declaration at the top of a library.  The script's name is left out where it is
the declared one. -/
def scriptTag (table : SymbolTable) (id : Nat) (symbol : Symbol) (name : String) : String :=
  if symbol.parent.isNone && symbol.name == name then "@JS()"
  else scriptName (table.qualifiedName id)

/-! ## Stubs -/

namespace OutputDecl

/-- What stands in the place of a declaration that cannot be written. -/
def ofStub (header : String) : OutputDecl :=
  { kind := .stub, header, docs := ["No legal name in the target; kept for reference."] }

end OutputDecl

end Interop
