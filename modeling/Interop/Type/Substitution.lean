import Interop.Type.Basic

/-!
# Replacing type parameters

* `Ty.substitute` — put types in the place of type parameters.  Parameters that a signature
  declares hide outer ones of the same name; a type that is put in is not renamed, so a signature
  around it may declare a name that occurs in it.
-/

namespace Interop

/-- Types for type parameters; the first entry of a name counts. -/
abbrev Bindings := List (String × Ty)

/-- The bindings that remain inside a signature that declares these type parameters. -/
def Bindings.hiding (bindings : Bindings) (names : List String) : Bindings :=
  bindings.filter fun b => !names.contains b.1

mutual

/-- Put types in the place of type parameters. -/
def Ty.substitute (bindings : Bindings) : Ty → Ty
  | .primitive kind => .primitive kind
  | .nominal symbol args => .nominal symbol (Ty.substituteAll bindings args)
  | .function signature => .function (signature.substitute bindings)
  | .array element => .array (element.substitute bindings)
  | .tuple elements => .tuple (Ty.substituteAll bindings elements)
  | .shape members => .shape (Member.substituteAll bindings members)
  | .alias symbol => .alias symbol
  | .param name => (bindings.lookup name).getD (.param name)
  | .literal kind text => .literal kind text
  | .union members => .union (Ty.substituteAll bindings members)
  | .intersection members => .intersection (Ty.substituteAll bindings members)
  | .raw text => .raw text

/-- Substitute in each type of a list. -/
def Ty.substituteAll (bindings : Bindings) : List Ty → List Ty
  | [] => []
  | ty :: tys => ty.substitute bindings :: Ty.substituteAll bindings tys

/-- Substitute in a signature, whose own type parameters stay. -/
def Signature.substitute (bindings : Bindings) : Signature → Signature
  | ⟨typeParams, params, result⟩ =>
    ⟨typeParams, Param.substituteAll (bindings.hiding typeParams) params,
      result.substitute (bindings.hiding typeParams)⟩

/-- Substitute in the type of a parameter. -/
def Param.substitute (bindings : Bindings) : Param → Param
  | ⟨name, type, optional, rest⟩ => ⟨name, type.substitute bindings, optional, rest⟩

/-- Substitute in each parameter of a list. -/
def Param.substituteAll (bindings : Bindings) : List Param → List Param
  | [] => []
  | p :: ps => p.substitute bindings :: Param.substituteAll bindings ps

/-- Substitute in what a member is. -/
def MemberKind.substitute (bindings : Bindings) : MemberKind → MemberKind
  | .property type optional readonly => .property (type.substitute bindings) optional readonly
  | .method signature optional => .method (signature.substitute bindings) optional
  | .call signature => .call (signature.substitute bindings)
  | .construct signature => .construct (signature.substitute bindings)
  | .index signature => .index (signature.substitute bindings)
  | .nested symbol => .nested symbol

/-- Substitute in a member. -/
def Member.substitute (bindings : Bindings) : Member → Member
  | ⟨name, kind, isStatic, span⟩ => ⟨name, kind.substitute bindings, isStatic, span⟩

/-- Substitute in each member of a list. -/
def Member.substituteAll (bindings : Bindings) : List Member → List Member
  | [] => []
  | m :: ms => m.substitute bindings :: Member.substituteAll bindings ms

end

end Interop
