import Interop.Source.Parser

/-!
# The grammar of types

* `typeGrammar` — a type, in terms of what may stand inside it.
* `signatureNode`, `memberNode`, `propertyKey` — signatures and members, which classes share.
-/

namespace Interop.Source.Grammar

open Interop.Source.Parser

/-! ## Parameters -/

/-- A type after a colon, if there is one. -/
def typeNote (inner : Inner) : Parser (Option TypeNode) := do
  if (← read).typed && (← eatPunct ":") then return some (← inner.type) else return none

/-- Words that make a parameter a property of its class. -/
def parameterModifiers : List String := ["public", "private", "protected", "readonly", "override"]

/-- Read the modifiers of a parameter; whether there are any. -/
def eatParameterModifiers : Parser Bool := do
  let found ← many do
    match ← kind?, ← kindAhead? 1 with
    | some (.word w false), some next =>
      let bindingFollows := isWord (some next) || next == .punct "[" || next == .punct "\x7b"
      if (← read).typed && parameterModifiers.contains w && bindingFollows then
        return some (← anyToken)
      else return none
    | _, _ => return none
  return !found.isEmpty

/-- A default value, if there is one. -/
def defaultValue (inner : Inner) : Parser (Option Expr) := do
  if ← eatPunct "=" then return some (← inner.enclosed) else return none

/-- One entry of a parameter list. -/
inductive ParamEntry where
  /-- A parameter that stands for the object itself. -/
  | this
  | plain (param : ParamNode)
  | rest (param : ParamNode)

/-- One entry of a parameter list.  Decorators may stand before it. -/
def paramEntry (inner : Inner) : Parser ParamEntry := do
  let _ ← many do
    if ← eatPunct "@" then return some (← inner.enclosed) else return none
  let isProperty ← eatParameterModifiers
  let isRest ← eatPunct "..."
  if ← atKeyword "this" then
    let _ ← anyToken
    let _ ← typeNote inner
    return .this
  else
    let binding ← inner.binding
    let optional ← if (← read).typed then eatPunct "?" else pure false
    let type ← typeNote inner
    let value ← defaultValue inner
    let param : ParamNode := ⟨binding, type, optional, value.isSome, isProperty⟩
    return if isRest then .rest param else .plain param

/-- A parameter list in brackets: the parameters, and the rest parameter, which must be last. -/
def paramList (inner : Inner) : Parser (List ParamNode × Option ParamNode) := do
  punct "("
  let entries ← listUntil ")" (paramEntry inner)
  let plain := entries.filterMap fun e => match e with | .plain p => some p | _ => none
  match entries.filterMap fun e => match e with | .rest p => some p | _ => none with
  | [] => return (plain, none)
  | rest :: _ =>
    match entries.getLast? with
    | some (.rest _) => return (plain, some rest)
    | _ => failure

/-! ## Type parameters and arguments -/

/-- Words before the name of a type parameter. -/
def varianceWords : List String := ["const", "in", "out"]

/-- A type parameter. -/
def typeParam (inner : Inner) : Parser TypeParamNode := do
  let _ ← many do
    match ← kind?, ← kindAhead? 1 with
    | some (.word w false), some (.word next _) =>
      if varianceWords.contains w && next != "extends" then return some (← anyToken) else return none
    | _, _ => return none
  let name ← name
  let bound ← if ← eatKeyword "extends" then pure [← inner.type] else pure []
  let default ← if ← eatPunct "=" then pure [← inner.type] else pure []
  return ⟨name, bound ++ default⟩

/-- Type parameters in angle brackets, if there are any. -/
def typeParams (inner : Inner) : Parser (List TypeParamNode) := do
  if (← read).typed && (← eatPunct "<") then
    match ← listUntil ">" (typeParam inner) with
    | [] => failure
    | params => return params
  else return []

/-- Type arguments in angle brackets. -/
def typeArgs (inner : Inner) : Parser (List TypeNode) := do
  punct "<"
  let args ← commaSeparated inner.type
  punct ">"
  return args

/-- Type arguments on the same line, if there are any. -/
def optionalTypeArgs (inner : Inner) : Parser (List TypeNode) := do
  if (← atPunct "<") && !(← lineEndBefore 0) then typeArgs inner else return []

/-! ## Results -/

/-- Whether the tokens ahead say what type an argument has: a name and `is` on one line. -/
def atPredicate : Parser Bool := do
  let subject := match ← kind? with
    | some (.word w _) => w == "this" || !reservedWords.contains w
    | _ => false
  return subject && (← keywordAhead 1 "is") && !(← lineEndBefore 1)

/-- The result of a call: a type, or a statement about the type of an argument. -/
def resultType (inner : Inner) : Parser TypeNode := do
  let start ← here
  let asserts := (← atKeyword "asserts") && isWord (← kindAhead? 1) && !(← lineEndBefore 1) &&
    !(← keywordAhead 1 "is")
  if asserts then
    let _ ← anyToken
    let _ ← word
    let parts ← if ← eatKeyword "is" then pure [← inner.type] else pure []
    return ⟨← spanFrom start, .predicate parts⟩
  else if ← atPredicate then
    let _ ← word
    let _ ← word
    let type ← inner.type
    return ⟨← spanFrom start, .predicate [type]⟩
  else inner .type

/-- The result after a colon, if there is one. -/
def resultNote (inner : Inner) : Parser (Option TypeNode) := do
  if (← read).typed && (← eatPunct ":") then
    withReader (fun mode => { mode with conditionals := true }) (some <$> resultType inner)
  else return none

/-- Type parameters, parameters and result of a call. -/
def signatureNode (inner : Inner) : Parser SignatureNode := do
  let typeParams ← typeParams inner
  let (params, rest) ← paramList inner
  let result ← resultNote inner
  return ⟨typeParams, params, rest, result⟩

/-- A function type, whose result follows an arrow. -/
def functionSignature (inner : Inner) : Parser SignatureNode := do
  let typeParams ← typeParams inner
  let (params, rest) ← paramList inner
  punct "=>"
  let result ← resultType inner
  return ⟨typeParams, params, rest, some result⟩

/-! ## Names and literals -/

/-- A name with dots, of which the first part is given. -/
def dotted (first : String) : Parser (List String) := do
  let more ← many do
    if ← eatPunct "." then return some (← word) else return none
  return first :: more

/-- The types in a template, after its first piece. -/
def templateTypes (inner : Inner) : Parser (List TypeNode) := do
  let first ← inner.type
  let more ← many do
    match ← kind? with
    | some .templateMiddle =>
      let _ ← anyToken
      return some (← inner.type)
    | _ => return none
  match (← anyToken).kind with
  | .templateTail => return first :: more
  | _ => failure

/-- The name of a property. -/
def propertyKey (inner : Inner) : Parser PropertyKey := do
  match (← anyToken).kind with
  | .word name _ => return .identifier name
  | .string value => return .string value
  | .number | .bigint => return .number
  | .hashName name => return .hash name
  | .punct text =>
    if text == "[" then
      let e ← inner.enclosed
      punct "]"
      match e with
      | .string _ value => return .string value
      | _ => return .computed
    else failure
  | _ => failure

/-! ## Members -/

/-- The end of a member. -/
def memberEnd : Parser Unit := do
  if ← eatPunct "," then return () else semicolon

/-- Whether the tokens ahead begin an index signature. -/
def atIndexSignature : Parser Bool := do
  return (← atPunct "[") && isWord (← kindAhead? 1) && (← punctAhead 2 ":")

/-- An index signature after its modifiers. -/
def indexSignature (inner : Inner) (start : Nat) (isStatic : Bool) : Parser MemberNode := do
  punct "["
  let keyName ← word
  punct ":"
  let key ← inner.type
  punct "]"
  punct ":"
  let value ← inner.type
  memberEnd
  return .index (← spanFrom start) isStatic keyName key value

/-- Whether the next token is a word that stands before the name of a member. -/
def atAccessorWord (w : String) : Parser Bool := do
  return (← atKeyword w) && isKeyStart (← kindAhead? 1)

/-- A member of an object type or interface. -/
def memberNode (inner : Inner) : Parser MemberNode := do
  let start ← here
  if (← atPunct "(") || (← atPunct "<") then
    let signature ← signatureNode inner
    memberEnd
    return .call (← spanFrom start) signature
  else if (← atKeyword "new") && ((← punctAhead 1 "(") || (← punctAhead 1 "<")) then
    let _ ← anyToken
    let signature ← signatureNode inner
    memberEnd
    return .construct (← spanFrom start) signature
  else
    let readonly := (← atAccessorWord "readonly") && !(← lineEndBefore 1)
    if readonly then
      let _ ← anyToken
    if ← atIndexSignature then indexSignature inner start false
    else if (← atAccessorWord "get") || (← atAccessorWord "set") then
      let kind := if ← eatKeyword "get" then MethodKind.getter else .setter
      if kind == .setter then
        let _ ← anyToken
      let key ← propertyKey inner
      let signature ← signatureNode inner
      memberEnd
      return .method (← spanFrom start) key kind false signature
    else
      let key ← propertyKey inner
      let optional ← eatPunct "?"
      if (← atPunct "(") || (← atPunct "<") then
        let signature ← signatureNode inner
        memberEnd
        return .method (← spanFrom start) key .method optional signature
      else
        let type ← typeNote inner
        memberEnd
        return .property (← spanFrom start) key optional readonly type

/-- The members of an object type or interface, in braces. -/
def memberList (inner : Inner) : Parser (List MemberNode) := do
  punct "\x7b"
  let members ← many do
    if ← atPunct "\x7d" then return none else return some (← memberNode inner)
  punct "\x7d"
  return members

/-! ## Forms in brackets -/

/-- Whether the tokens ahead begin a mapped type. -/
def atMappedType : Parser Bool :=
  lookingAt do
    punct "\x7b"
    if (← eatPunct "+") || (← eatPunct "-") then keyword "readonly"
    else if (← atKeyword "readonly") && (← punctAhead 1 "[") then keyword "readonly"
    punct "["
    let _ ← word
    keyword "in"

/-- A mapped type; the types in it. -/
def mappedType (inner : Inner) : Parser (List TypeNode) := do
  punct "\x7b"
  if !(← eatPunct "+") then
    let _ ← eatPunct "-"
  let _ ← eatKeyword "readonly"
  punct "["
  let _ ← word
  keyword "in"
  let keys ← inner.type
  let renamed ← if ← eatKeyword "as" then pure [← inner.type] else pure []
  punct "]"
  if !(← eatPunct "+") then
    let _ ← eatPunct "-"
  let _ ← eatPunct "?"
  let value ← typeNote inner
  if !(← eatPunct ",") then semicolon
  punct "\x7d"
  return keys :: renamed ++ value.toList

/-- Whether the tokens ahead begin a labelled element of a tuple. -/
def atTupleLabel : Parser Bool := do
  return isWord (← kind?) &&
    ((← punctAhead 1 ":") || ((← punctAhead 1 "?") && (← punctAhead 2 ":")))

/-- A labelled element of a tuple, from its label on. -/
def labelledElement (inner : Inner) : Parser TypeNode := do
  let _ ← word
  let _ ← eatPunct "?"
  punct ":"
  inner.type

/-- An element of a tuple.  Dots before a label are not part of what is kept as written. -/
def tupleElement (inner : Inner) : Parser TypeNode := do
  if ← eatPunct "..." then
    if ← atTupleLabel then
      let start ← here
      let type ← labelledElement inner
      return ⟨← spanFrom start, .unsupported .otherForm [type]⟩
    else inner.type
  else if ← atTupleLabel then labelledElement inner
  else
    let type ← inner.type
    match type.form with
    | .unsupported .documentation [element] => return element
    | _ => return type

/-! ## Primary types -/

/-- A type that is imported where it is used; the types in it. -/
def importType (inner : Inner) : Parser (List TypeNode) := do
  keyword "import"
  punct "("
  let argument ← inner.type
  if ← eatPunct "," then
    if !(← atPunct ")") then
      let _ ← inner.enclosed
      let _ ← eatPunct ","
  punct ")"
  let _ ← dotted ""
  let args ← optionalTypeArgs inner
  return argument :: args

/-- What is asked for after `typeof`; the types in it. -/
def typeQuery (inner : Inner) : Parser (List TypeNode) := do
  if ← atKeyword "import" then importType inner
  else
    let first ← word
    if first != "this" && reservedWords.contains first then failure
    let _ ← many do
      if ← eatPunct "." then
        match (← anyToken).kind with
        | .word .. | .hashName _ => return some ()
        | _ => failure
      else return none
    optionalTypeArgs inner

/-- A type that begins with a word. -/
def wordType (inner : Inner) (w : String) (escaped : Bool) : Parser TypeForm := do
  let keywordType := if escaped then none else Primitive.ofKeyword? w
  match keywordType with
  | some kind =>
    if !(← punctAhead 1 ".") || kind == .null || kind == .void then
      let _ ← anyToken
      return .keyword kind
  | none => pure ()
  if !escaped && (w == "true" || w == "false") then
    let _ ← anyToken
    return .literal .boolean
  else if !escaped && w == "this" then
    if ← atPredicate then
      let _ ← word
      let _ ← word
      return .predicate [← inner.type]
    else
      let _ ← anyToken
      return .this
  else if !escaped && w == "typeof" then
    let _ ← anyToken
    return .unsupported .typeQuery (← typeQuery inner)
  else if !escaped && w == "import" then
    return .unsupported .importType (← importType inner)
  else
    let path ← dotted (← name)
    return .reference path (← optionalTypeArgs inner)

/-- A type that is no operator applied to another. -/
def primaryType (inner : Inner) : Parser TypeNode := do
  let start ← here
  let form ← do
    match ← kind? with
    | some (.word w escaped) => some <$> wordType inner w escaped
    | some (.string _) => anyToken *> pure (some (.literal .string))
    | some .number => anyToken *> pure (some (.literal .number))
    | some .bigint => anyToken *> pure (some (.literal .bigint))
    | some .template => anyToken *> pure (some (.literal .template))
    | some .templateHead =>
      let _ ← anyToken
      pure (some (TypeForm.unsupported .templateLiteral (← templateTypes inner)))
    | some (.punct "-") =>
      let _ ← anyToken
      match (← anyToken).kind with
      | .number | .bigint => pure (some (TypeForm.literal .number))
      | _ => failure
    | some (.punct "\x7b") =>
      if ← atMappedType then pure (some (TypeForm.unsupported .mapped (← mappedType inner)))
      else pure (some (TypeForm.shape (← memberList inner)))
    | some (.punct "[") =>
      let _ ← anyToken
      pure (some (TypeForm.tuple (← listUntil "]" (tupleElement inner))))
    | some (.punct "?") | some (.punct "!") =>
      let _ ← anyToken
      pure (some (TypeForm.unsupported .documentation [← inner.type]))
    | some (.punct "*") =>
      let _ ← anyToken
      pure (some (TypeForm.unsupported .documentation []))
    | _ => pure none
  match form with
  | some form => return ⟨← spanFrom start, form⟩
  | none =>
    punct "("
    let type ← inner.type
    punct ")"
    return type

/-! ## Operators -/

/-- Whether a token can begin a type. -/
def startsType : Option TokenKind → Bool
  | some (.word w escaped) =>
    escaped || !reservedWords.contains w ||
      ["null", "void", "true", "false", "this", "typeof", "import", "new"].contains w
  | some (.string _) | some .number | some .bigint | some .template | some .templateHead => true
  | some (.punct text) =>
    ["\x7b", "[", "(", "<", "|", "&", "-", "?", "!", "*", "..."].contains text
  | _ => false

/-- One operator after a type: an array, an access to a member, or a mark of documentation
comments. -/
def typeSuffix (inner : Inner) (start : Nat) (type : TypeNode) : Parser (Option TypeNode) := do
  if ← lineEndBefore 0 then return none
  else if ← eatPunct "[" then
    if ← eatPunct "]" then return some ⟨← spanFrom start, .array type⟩
    else
      let index ← inner.type
      punct "]"
      return some ⟨← spanFrom start, .unsupported .indexedAccess [type, index]⟩
  else if ← eatPunct "!" then return some ⟨← spanFrom start, .unsupported .documentation [type]⟩
  else if (← atPunct "?") && !startsType (← kindAhead? 1) && !(← punctAhead 1 ":") then
    let _ ← anyToken
    return some ⟨← spanFrom start, .unsupported .documentation [type]⟩
  else return none

/-- The bound of a type that is inferred; left alone when it is the condition of a conditional
type. -/
def inferBound (inner : Inner) : Parser (List TypeNode) := do
  let conditionals := (← read).conditionals
  let bound ← optionally do
    keyword "extends"
    let bound ← withReader (fun mode => { mode with conditionals := false }) (inner .type)
    if conditionals && (← atPunct "?") then failure else return bound
  return bound.toList

/-- A type without operators in front. -/
def suffixedType (inner : Inner) : Parser TypeNode := do
  let start ← here
  if ← eatKeyword "infer" then
    let _ ← name
    let bound ← inferBound inner
    return ⟨← spanFrom start, .unsupported .infer bound⟩
  else
    iterate (typeSuffix inner start) (← primaryType inner)

/-- An operator in front of a type. -/
def typeOperator : Parser (Option (TypeNode → TypeForm)) := do
  match ← kind? with
  | some (.word "keyof" false) => anyToken *> pure (some fun type => .unsupported .keyof [type])
  | some (.word "unique" false) =>
    anyToken *> pure (some fun type => .unsupported .uniqueSymbol [type])
  | some (.word "readonly" false) => anyToken *> pure (some fun type => .readonly type)
  | _ => return none

/-- A type with operators in front. -/
def operatorType (inner : Inner) : Parser TypeNode := do
  let operators ← many do
    let start ← here
    return (← typeOperator).map (start, ·)
  let type ← suffixedType inner
  let stop := (← get).lastStop
  return operators.foldr (fun (start, operator) type => ⟨⟨start, stop⟩, operator type⟩) type

/-- Operands with an operator between them, which may also stand in front. -/
def joined (operator : String) (operand : Parser TypeNode) (join : List TypeNode → TypeForm) :
    Parser TypeNode := do
  let start ← here
  let leading ← eatPunct operator
  let first ← operand
  let more ← many do
    if ← eatPunct operator then return some (← operand) else return none
  if leading || !more.isEmpty then return ⟨← spanFrom start, join (first :: more)⟩
  else return first

/-- A union of intersections. -/
def unionType (inner : Inner) : Parser TypeNode :=
  joined "|" (joined "&" (operatorType inner) .intersection) .union

/-- A type that depends on whether another extends a third. -/
def conditionalType (inner : Inner) : Parser TypeNode := do
  let start ← here
  let checked ← unionType inner
  if (← read).conditionals && (← atKeyword "extends") && !(← lineEndBefore 0) then
    keyword "extends"
    let bound ← withReader (fun mode => { mode with conditionals := false }) (inner .type)
    punct "?"
    let yes ← inner.type
    punct ":"
    let no ← inner.type
    return ⟨← spanFrom start, .unsupported .conditional [checked, bound, yes, no]⟩
  else return checked

/-- A function type. -/
def functionType (inner : Inner) : Parser TypeNode := do
  let start ← here
  let signature ← functionSignature inner
  return ⟨← spanFrom start, .function signature⟩

/-- A constructor type. -/
def constructorType (inner : Inner) : Parser TypeNode := do
  let start ← here
  let _ ← eatKeyword "abstract"
  keyword "new"
  let signature ← functionSignature inner
  let span ← spanFrom start
  return ⟨span, .unsupported .constructorType [⟨span, .function signature⟩]⟩

/-- A type. -/
def typeGrammar (inner : Inner) : Parser TypeNode := do
  if (← atKeyword "new") || ((← atKeyword "abstract") && (← keywordAhead 1 "new")) then
    constructorType inner
  else if ← atPunct "<" then functionType inner
  else if ← atPunct "(" then
    match ← optionally (functionType inner) with
    | some type => return type
    | none => conditionalType inner
  else conditionalType inner

end Interop.Source.Grammar
