import Interop.Source.Syntax

/-!
# Early errors

Some files can be read but are rejected all the same.

* `Conflict` — which declarations of one name exclude one another in a scope.
* `Program.isWellFormed` — whether a file has none of the errors: a name declared twice, a required
  parameter after an optional one, a parameter that is a property outside a constructor with a body,
  a class without a name, a type in the notation of documentation comments, and a module that stands
  for one value and has other exports.
-/

namespace Interop.Source

/-! ## Declaring a name twice -/

/-- In which way a name is bound. -/
inductive Binder where
  | var
  | lexical
  | klass
  | function
  | enum (isConst : Bool)
  | alias
  | interface
  | imported
  deriving DecidableEq, Repr

namespace Binder

/-- Whether a binder makes a value. -/
def isValue : Binder → Bool
  | .var | .lexical | .klass | .function | .enum _ => true
  | .alias | .interface | .imported => false

/-- Whether a binder makes a type. -/
def isType : Binder → Bool
  | .klass | .enum _ | .alias | .interface => true
  | .var | .lexical | .function | .imported => false

/-- Whether a name that is bound already may not be bound in this way too. -/
def excludes : (new old : Binder) → Bool
  | .var, old => old.isValue && old != .var && old != .function
  | .lexical, old => old.isValue
  | .function, old => old.isValue && old != .function && old != .klass
  | .klass, old => (old.isValue && old != .function) || old == .alias
  | .alias, old => old.isType
  | .interface, old => old.isType && old != .interface && old != .klass
  | .enum isConst, old => (old.isValue || old.isType) && old != .enum isConst
  | .imported, old => old == .imported

end Binder

/-- Whether every name of a scope, in order, may be bound after those before it. -/
def scopeIsConsistent : List (String × Binder) → Bool
  | [] => true
  | (name, old) :: rest =>
    (rest.all fun (other, new) => other != name || !new.excludes old) && scopeIsConsistent rest

mutual

/-- The names that a statement binds in the function around it from within blocks. -/
def Statement.hoisted : Statement → List String
  | .declaration _ (.variables .var nodes) => nodes.flatMap (·.binding.names)
  | .block body => Statement.allHoisted body
  | .compound _ bodies => Statement.allHoisted bodies
  | _ => []

/-- The names that statements bind in the function around them from within blocks. -/
def Statement.allHoisted : List Statement → List String
  | [] => []
  | s :: rest => s.hoisted ++ Statement.allHoisted rest

end

/-- The names that a declaration binds.  A namespace may stand beside anything of its name. -/
def Declaration.binders : Declaration → List (String × Binder)
  | .interface node => [(node.name, .interface)]
  | .klass node => node.name.toList.map (·, .klass)
  | .alias node => [(node.name, .alias)]
  | .enum node => [(node.name, .enum node.isConst)]
  | .function node => node.name.toList.map (·, .function)
  | .variables kind nodes =>
    let binder := if kind == .var then Binder.var else .lexical
    nodes.flatMap fun node => node.binding.names.map (·, binder)
  | .nameSpace .. => []

/-- The names that a statement binds in the scope it stands in. -/
def Statement.binders : Statement → List (String × Binder)
  | .declaration _ d => d.binders
  | .imports names => names.map (·, .imported)
  | .block body => (Statement.allHoisted body).map (·, .var)
  | .compound _ bodies => (Statement.allHoisted bodies).map (·, .var)
  | .global _ | .exportAssignment _ | .otherExport _ => []

/-! ## Exports -/

/-- Whether a statement exports something by a name. -/
def Statement.isNamedExport : Statement → Bool
  | .declaration exported _ => exported
  | .otherExport _ => true
  | _ => false

/-- Whether a statement gives the one value that a module stands for. -/
def Statement.isExportAssignment : Statement → Bool
  | .exportAssignment _ => true
  | _ => false

/-- Whether the statements of a scope may stand together. -/
def statementsAgree (params : List String) (body : List Statement) : Bool :=
  scopeIsConsistent (params.map (·, .var) ++ body.flatMap (·.binders)) &&
    !(body.any (·.isExportAssignment) && body.any (·.isNamedExport))

/-! ## Types -/

/-- Whether no required parameter follows an optional one. -/
def requiredFirst (params : List ParamNode) : Bool :=
  (params.dropWhile fun p => !p.optional).all fun p => p.optional || p.hasDefault

mutual

/-- Whether a type is free of errors. -/
def TypeNode.isWellFormed : TypeNode → Bool
  | ⟨_, form⟩ => form.isWellFormed

/-- Whether a form of type is free of errors. -/
def TypeForm.isWellFormed : TypeForm → Bool
  | .keyword _ | .this | .literal _ => true
  | .reference _ args => TypeNode.allWellFormed args
  | .array element => element.isWellFormed
  | .tuple elements => TypeNode.allWellFormed elements
  | .union members => TypeNode.allWellFormed members
  | .intersection members => TypeNode.allWellFormed members
  | .function signature => signature.isWellFormed false
  | .shape members => MemberNode.allWellFormed members
  | .readonly inner => inner.isWellFormed
  | .predicate parts => TypeNode.allWellFormed parts
  | .unsupported construct parts => construct != .documentation && TypeNode.allWellFormed parts

/-- Whether all of some types are free of errors. -/
def TypeNode.allWellFormed : List TypeNode → Bool
  | [] => true
  | type :: rest => type.isWellFormed && TypeNode.allWellFormed rest

/-- Whether a type that may be missing is free of errors. -/
def TypeNode.optionWellFormed : Option TypeNode → Bool
  | none => true
  | some type => type.isWellFormed

/-- Whether the bounds of type parameters are free of errors. -/
def TypeParamNode.allWellFormed : List TypeParamNode → Bool
  | [] => true
  | ⟨_, bounds⟩ :: rest => TypeNode.allWellFormed bounds && TypeParamNode.allWellFormed rest

/-- Whether a parameter is free of errors, where it may be a property or may not. -/
def ParamNode.isWellFormed (mayBeProperty : Bool) : ParamNode → Bool
  | ⟨_, type, _, _, isProperty⟩ => TypeNode.optionWellFormed type && (mayBeProperty || !isProperty)

/-- Whether all of some parameters are free of errors. -/
def ParamNode.allWellFormed (mayBeProperty : Bool) : List ParamNode → Bool
  | [] => true
  | p :: rest => p.isWellFormed mayBeProperty && ParamNode.allWellFormed mayBeProperty rest

/-- Whether a signature is free of errors. -/
def SignatureNode.isWellFormed (mayHaveProperties : Bool) : SignatureNode → Bool
  | ⟨typeParams, params, rest, result⟩ =>
    TypeParamNode.allWellFormed typeParams && ParamNode.allWellFormed mayHaveProperties params &&
      requiredFirst params && (match rest with
        | some p => p.isWellFormed mayHaveProperties
        | none => true) && TypeNode.optionWellFormed result

/-- Whether a member is free of errors. -/
def MemberNode.isWellFormed : MemberNode → Bool
  | .property _ _ _ _ type => TypeNode.optionWellFormed type
  | .method _ _ _ _ signature => signature.isWellFormed false
  | .call _ signature => signature.isWellFormed false
  | .construct _ signature => signature.isWellFormed false
  | .index _ _ _ key value => key.isWellFormed && value.isWellFormed

/-- Whether all of some members are free of errors. -/
def MemberNode.allWellFormed : List MemberNode → Bool
  | [] => true
  | m :: rest => m.isWellFormed && MemberNode.allWellFormed rest

end

/-- Whether the types in heritage clauses are free of errors. -/
def HeritageNode.allWellFormed (nodes : List HeritageNode) : Bool :=
  nodes.all fun node => TypeNode.allWellFormed node.args

/-! ## Code -/

mutual

/-- Whether an expression is free of errors. -/
def Expr.isWellFormed : Expr → Bool
  | .identifier .. | .string .. => true
  | .member _ object _ => object.isWellFormed
  | .template _ parts => Expr.allWellFormed parts
  | .function f => f.isWellFormed false
  | .klass c => c.isWellFormed
  | .compound _ parts => Expr.allWellFormed parts

/-- Whether all of some expressions are free of errors. -/
def Expr.allWellFormed : List Expr → Bool
  | [] => true
  | e :: rest => e.isWellFormed && Expr.allWellFormed rest

/-- Whether an expression that may be missing is free of errors. -/
def Expr.optionWellFormed : Option Expr → Bool
  | none => true
  | some e => e.isWellFormed

/-- Whether a function is free of errors.  Parameters may be properties only where there is a body. -/
def FunctionNode.isWellFormed (isConstructor : Bool) : FunctionNode → Bool
  | ⟨_, _, signature, none⟩ => signature.isWellFormed false
  | ⟨_, _, signature, some body⟩ =>
    signature.isWellFormed isConstructor &&
      statementsAgree (signature.allParams.flatMap (·.binding.names)) body &&
      Statement.allWellFormed body

/-- Whether a class is free of errors. -/
def ClassNode.isWellFormed : ClassNode → Bool
  | ⟨_, _, typeParams, superclass, superArgs, interfaces, elements⟩ =>
    TypeParamNode.allWellFormed typeParams && Expr.optionWellFormed superclass &&
      TypeNode.allWellFormed superArgs && HeritageNode.allWellFormed interfaces &&
      ClassElement.allWellFormed elements

/-- Whether an element of a class is free of errors. -/
def ClassElement.isWellFormed : ClassElement → Bool
  | .method _ _ kind _ _ _ f => f.isWellFormed (kind == .constructor)
  | .property _ _ _ _ _ _ type value => TypeNode.optionWellFormed type && Expr.optionWellFormed value
  | .index m => m.isWellFormed
  | .accessor _ type value => TypeNode.optionWellFormed type && Expr.optionWellFormed value
  | .initializer body => statementsAgree [] body && Statement.allWellFormed body

/-- Whether all elements of a class are free of errors. -/
def ClassElement.allWellFormed : List ClassElement → Bool
  | [] => true
  | e :: rest => e.isWellFormed && ClassElement.allWellFormed rest

/-- Whether all of some variables are free of errors. -/
def VariableNode.allWellFormed : List VariableNode → Bool
  | [] => true
  | ⟨_, _, type, value⟩ :: rest =>
    TypeNode.optionWellFormed type && Expr.optionWellFormed value && VariableNode.allWellFormed rest

/-- Whether a declaration is free of errors. -/
def Declaration.isWellFormed : Declaration → Bool
  | .interface node =>
    TypeParamNode.allWellFormed node.typeParams && HeritageNode.allWellFormed node.bases &&
      MemberNode.allWellFormed node.members
  | .klass node => node.name.isSome && node.isWellFormed
  | .alias node => TypeParamNode.allWellFormed node.typeParams && node.body.isWellFormed
  | .enum _ => true
  | .function node => node.isWellFormed false
  | .variables _ nodes => VariableNode.allWellFormed nodes
  | .nameSpace _ _ body => statementsAgree [] body && Statement.allWellFormed body

/-- Whether a statement is free of errors. -/
def Statement.isWellFormed : Statement → Bool
  | .declaration _ d => d.isWellFormed
  | .global body => statementsAgree [] body && Statement.allWellFormed body
  | .exportAssignment e => e.isWellFormed
  | .otherExport parts => Expr.allWellFormed parts
  | .imports _ => true
  | .block body => statementsAgree [] body && Statement.allWellFormed body
  | .compound parts bodies => Expr.allWellFormed parts && Statement.allWellFormed bodies

/-- Whether all of some statements are free of errors. -/
def Statement.allWellFormed : List Statement → Bool
  | [] => true
  | s :: rest => s.isWellFormed && Statement.allWellFormed rest

end

/-- Whether a file is free of errors. -/
def Program.isWellFormed (p : Program) : Bool :=
  statementsAgree [] p.body && Statement.allWellFormed p.body

end Interop.Source
