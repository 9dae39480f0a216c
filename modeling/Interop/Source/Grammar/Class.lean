import Interop.Source.Grammar.Expression

/-!
# The grammar of classes

* `classGrammar` — a class, from its keyword on.
* `heritageName` — a type that an interface extends or a class implements.
-/

namespace Interop.Source.Grammar

open Interop.Source.Parser

/-! ## Heritage -/

/-- A type that an interface extends or a class implements: an expression, and type arguments. -/
def heritageNode (inner : Inner) : Parser HeritageNode := do
  let start ← here
  let e ← chain inner
  let args ← optionalTypeArgs inner
  return ⟨← spanFrom start, e.dottedName?, args⟩

/-! ## Elements -/

/-- Words before the name of a class element. -/
def elementModifiers : List String :=
  ["public", "private", "protected", "static", "abstract", "override", "readonly", "declare", "async",
    "accessor"]

/-- Whether what follows a modifier can be modified. -/
def canFollowModifier (next : Option TokenKind) : Bool :=
  isKeyStart next || next == some (.punct "*") || next == some (.punct "\x7b")

/-- Decorators. -/
def decorators (inner : Inner) : Parser Unit := do
  let _ ← many do
    if ← eatPunct "@" then return some (← chain inner) else return none

/-- The modifiers of a class element. -/
def modifiers (inner : Inner) : Parser (List String) := do
  decorators inner
  many do
    match ← kind? with
    | some (.word w false) =>
      let next ← kindAhead? 1
      let sameLine := w == "static" || !(← lineEndBefore 1)
      let opensBlock := next == some (.punct "\x7b")
      if elementModifiers.contains w && canFollowModifier next && sameLine &&
          (!opensBlock || w == "static") then
        let _ ← anyToken
        return some w
      else return none
    | _ => return none

/-- The body of a method, or the end of its declaration. -/
def methodBody (inner : Inner) : Parser (Option (List Statement)) := do
  if ← atPunct "\x7b" then return some (← functionBody inner)
  else if (← read).typed then
    semicolon
    return none
  else failure

/-- A method of a class, from its parameters on. -/
def classMethod (inner : Inner) (start : Nat) (modifiers : List String) (key : PropertyKey)
    (kind : ClassMethodKind) (optional : Bool) : Parser ClassElement := do
  let signatureStart ← here
  let signature ← signatureNode inner
  let body ← methodBody inner
  return .method (← spanFrom start) key kind (modifiers.contains "static") optional
    (modifiers.contains "private") ⟨← spanFrom signatureStart, none, signature, body⟩

/-- A property of a class, after its name. -/
def classProperty (inner : Inner) (start : Nat) (modifiers : List String) (key : PropertyKey)
    (optional : Bool) : Parser ClassElement := do
  if !optional then
    let _ ← eatPunct "!"
  let type ← typeNote inner
  let value ← defaultValue inner
  semicolon
  let span ← spanFrom start
  if modifiers.contains "accessor" then return .accessor span type value
  else
    let isStatic := modifiers.contains "static"
    let readonly := modifiers.contains "readonly"
    let isPrivate := modifiers.contains "private"
    return .property span key isStatic optional readonly isPrivate type value

/-- Whether a method of this name makes the object. -/
def isConstructor (modifiers : List String) (key : PropertyKey) : Bool :=
  !modifiers.contains "static" && key == .identifier "constructor"

/-- An element of a class body. -/
def classElement (inner : Inner) : Parser ClassElement := do
  let start ← here
  let modifiers ← modifiers inner
  if modifiers.contains "static" && (← atPunct "\x7b") then
    return .initializer (← functionBody inner)
  else if (← read).typed && (← atIndexSignature) then
    return .index (← indexSignature inner start (modifiers.contains "static"))
  else if (← atAccessorWord "get") || (← atAccessorWord "set") then
    let kind := if ← atKeyword "get" then MethodKind.getter else .setter
    let _ ← anyToken
    let key ← propertyKey inner
    classMethod inner start modifiers key (.method kind) false
  else
    let _ ← eatPunct "*"
    let quoted := match ← kind? with | some (.string value) => value == "constructor" | _ => false
    let key ← propertyKey inner
    let optional ← if (← read).typed then eatPunct "?" else pure false
    if (← atPunct "(") || (← atPunct "<") then
      let makes := isConstructor modifiers key || (quoted && !modifiers.contains "static")
      classMethod inner start modifiers key (if makes then .constructor else .method .method) optional
    else classProperty inner start modifiers key optional

/-! ## Classes -/

/-- A class, from its keyword on; its place begins where its modifiers do. -/
def classFrom (inner : Inner) (start : Nat) : Parser ClassNode := do
  keyword "class"
  let named := isBindable (← kind?) && !(← atKeyword "implements")
  let name ← if named then some <$> name else pure none
  let typeParams ← typeParams inner
  let superclass ← if ← eatKeyword "extends" then some <$> chain inner else pure none
  let superArgs ← if superclass.isSome && (← read).typed then optionalTypeArgs inner else pure []
  let interfaces ← if (← read).typed && (← eatKeyword "implements") then
      commaSeparated (heritageNode inner)
    else pure []
  punct "\x7b"
  let elements ← many do
    let _ ← many (do if ← eatPunct ";" then return some () else return none)
    if ← atPunct "\x7d" then return none else return some (← classElement inner)
  punct "\x7d"
  return ⟨← spanFrom start, name, typeParams, superclass, superArgs, interfaces, elements⟩

/-- A class. -/
def classGrammar (inner : Inner) : Parser ClassNode := do
  classFrom inner (← here)

end Interop.Source.Grammar
