import Interop.Emission.Signature

/-!
# Members of a class

Every group of members becomes one member of the class, except that a property that may be written
and an index signature become two.

* `memberDecls` — what a group is declared as.
-/

namespace Interop

/-- A member of a class. -/
def OutputDecl.ofMember (header : String) (metadata docs : List String) : OutputDecl :=
  { kind := .member, header, metadata, docs }

/-- The modifier of a static member. -/
def staticModifier (m : Member) : String :=
  if m.isStatic then "static " else ""

/-- A getter. -/
def getterHeader (modifier type name : String) : String :=
  "external " ++ modifier ++ type ++ " get " ++ name ++ ";"

/-- A setter. -/
def setterHeader (modifier type name : String) : String :=
  "external " ++ modifier ++ "set " ++ name ++ "(" ++ type ++ " value);"

/-- A function. -/
def functionHeader (modifier name : String) (sig : SignatureText) : String :=
  "external " ++ modifier ++ sig.result ++ " " ++ name ++ sig.generics ++ "(" ++ sig.params ++ ");"

/-- A property: a getter, and a setter where it may be written. -/
def propertyDecls (modifier name type : String) (readonly : Bool) (docs : List String) :
    List OutputDecl :=
  let declare (spelling : String) (metadata : List String) : List OutputDecl :=
    .ofMember (getterHeader modifier type spelling) metadata docs ::
      if readonly then [] else [.ofMember (setterHeader modifier type spelling) metadata []]
  match Identifier.validate name .value with
  | .usable => declare name []
  | .escaped spelling => declare spelling [scriptName name]
  | .unusable => [.ofStub (getterHeader modifier type name)]

/-- A method. -/
def methodDecl (modifier name : String) (sig : SignatureText) (docs : List String) : OutputDecl :=
  match Identifier.validate name .value with
  | .usable => .ofMember (functionHeader modifier name sig) [] docs
  | .escaped spelling => .ofMember (functionHeader modifier spelling sig) [scriptName name] docs
  | .unusable => .ofStub (functionHeader modifier name sig)

/-- The key of an index operator: its one parameter, which is never left out. -/
def operatorKey (params : String) : String :=
  let key := params.toList.dropWhile (· == '[')
  String.ofList (key.reverse.dropWhile (· == ']')).reverse

/-- An index signature: an operator that reads and one that writes. -/
def operatorDecls (sig : SignatureText) (docs : List String) : List OutputDecl :=
  [.ofMember ("external " ++ sig.result ++ " operator [](" ++ sig.params ++ ");") [] docs,
    .ofMember ("external void operator []=(" ++ operatorKey sig.params ++ ", " ++ sig.result ++
      " value);") [] []]

/-- What a group of members is declared as, in a class of the given name. -/
def memberDecls (className : String) (group : MemberGroup) : Work (List OutputDecl) := do
  let m := group.effective
  modify (·.pointAt m.span)
  let name := m.name.getD ""
  match m.kind with
  | .property type _ readonly =>
    return propertyDecls (staticModifier m) name (← declaredType type) readonly group.docs
  | .method sig _ => return [methodDecl (staticModifier m) name (← SignatureText.of sig) group.docs]
  | .call sig => return [.ofMember (functionHeader "" "call" (← SignatureText.of sig)) [] group.docs]
  | .construct sig =>
    let sig ← SignatureText.withoutGenerics sig
    return [.ofMember ("external factory " ++ className ++ "(" ++ sig.params ++ ");") [] group.docs]
  | .index sig => return operatorDecls (← SignatureText.withoutGenerics sig) group.docs
  | .nested _ => return []

end Interop
