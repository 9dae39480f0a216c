import Interop.Source.Grammar.Type

/-!
# The grammar of expressions

Expressions are read for what they contain: the functions and classes in them, and whether they are
names, strings or templates.  How operators nest makes no difference to that, so operands are read
one after another.

* `expressionGrammar` — an expression without commas at its top.
* `bindingGrammar` — what a variable or parameter binds.
* `functionBody` — the statements of a function, in braces.
-/

namespace Interop.Source.Grammar

open Interop.Source.Parser

/-! ## Bindings -/

/-- An element of a pattern: a binding and its default value. -/
def patternElement (inner : Inner) : Parser (List String) := do
  let binding ← inner.binding
  let _ ← defaultValue inner
  return binding.names

/-- An entry of an array pattern, which may be left out. -/
def arrayEntry (inner : Inner) : Parser (List String) := do
  if ← atPunct "," then return []
  else if ← eatPunct "..." then return (← inner.binding).names
  else patternElement inner

/-- An entry of an object pattern. -/
def objectEntry (inner : Inner) : Parser (List String) := do
  if ← eatPunct "..." then return (← inner.binding).names
  else
    let bindable := isBindable (← kind?)
    let key ← propertyKey inner
    if ← eatPunct ":" then patternElement inner
    else if bindable then
      let _ ← defaultValue inner
      return key.name?.toList
    else failure

/-- What a variable or parameter binds. -/
def bindingGrammar (inner : Inner) : Parser Binding := do
  if ← eatPunct "[" then return .pattern (← listUntil "]" (arrayEntry inner)).flatten
  else if ← eatPunct "\x7b" then return .pattern (← listUntil "\x7d" (objectEntry inner)).flatten
  else return .name (← name)

/-! ## Functions -/

/-- The statements of a function, in braces. -/
def functionBody (inner : Inner) : Parser (List Statement) := do
  punct "\x7b"
  let body ← many do
    if ← atPunct "\x7d" then return none else return some (← inner.statement)
  punct "\x7d"
  return body

/-- A function expression. -/
def functionExpression (inner : Inner) : Parser Expr := do
  let start ← here
  let _ ← eatKeyword "async"
  keyword "function"
  let _ ← eatPunct "*"
  let name ← if isBindable (← kind?) then some <$> name else pure none
  let signature ← signatureNode inner
  let body ← functionBody inner
  return .function ⟨← spanFrom start, name, signature, some body⟩

/-- The body of an arrow function: statements, or the expression it gives. -/
def arrowBody (inner : Inner) : Parser (List Statement) := do
  if ← atPunct "\x7b" then functionBody inner
  else
    let value ← inner.expression
    return [.compound [value] []]

/-- The parameters of an arrow function in brackets, and its result. -/
def arrowSignature (inner : Inner) : Parser SignatureNode := do
  let typeParams ← typeParams inner
  let (params, rest) ← paramList inner
  let result ← if (← read).arrowResults then resultNote inner else pure none
  return ⟨typeParams, params, rest, result⟩

/-- The signature of an arrow function up to its arrow. -/
def arrowHead (inner : Inner) : Parser SignatureNode := do
  let async := (← atKeyword "async") && !(← lineEndBefore 1) &&
    (isBindable (← kindAhead? 1) || (← punctAhead 1 "(") || (← punctAhead 1 "<"))
  if async then
    let _ ← anyToken
  let signature ← if isBindable (← kind?) then
      let binding := Binding.name (← name)
      pure ⟨[], [⟨binding, none, false, false, false⟩], none, none⟩
    else arrowSignature inner
  if ← lineEndBefore 0 then failure
  punct "=>"
  return signature

/-- An arrow function. -/
def arrowFunction (inner : Inner) : Parser Expr := do
  let start ← here
  let signature ← arrowHead inner
  let body ← arrowBody inner
  return .function ⟨← spanFrom start, none, signature, some body⟩

/-- Whether an arrow function may begin here. -/
def mayBeArrow : Parser Bool := do
  return (← atPunct "(") || (← atPunct "<") || (← atKeyword "async") ||
    (isBindable (← kind?) && (← punctAhead 1 "=>"))

/-! ## Literals -/

/-- Expressions with commas between them; the whole counts as its parts. -/
def sequence (inner : Inner) : Parser (List Expr) :=
  commaSeparated inner.enclosed

/-- An element of an array or of an argument list. -/
def spreadElement (inner : Inner) : Parser (List Expr) := do
  if ← atPunct "," then return []
  else
    let _ ← eatPunct "..."
    return [← inner.enclosed]

/-- A method of an object, from its parameters on. -/
def objectMethod (inner : Inner) (start : Nat) : Parser Expr := do
  let signature ← signatureNode inner
  let body ← functionBody inner
  return .function ⟨← spanFrom start, none, signature, some body⟩

/-- A property of an object. -/
def objectProperty (inner : Inner) : Parser (List Expr) := do
  let start ← here
  if ← eatPunct "..." then return [← inner.enclosed]
  else
    let _ ← many do
      if ((← atAccessorWord "get") || (← atAccessorWord "set") || (← atAccessorWord "async") ||
          ((← atKeyword "async") && (← punctAhead 1 "*"))) then return some (← anyToken)
      else if ← atPunct "*" then return some (← anyToken)
      else return none
    let _ ← propertyKey inner
    if (← atPunct "(") || (← atPunct "<") then return [← objectMethod inner start]
    else if ← eatPunct ":" then return [← inner.enclosed]
    else return (← defaultValue inner).toList

/-- The expressions in a template, after its first piece. -/
def templateParts (inner : Inner) : Parser (List Expr) := do
  let first ← sequence inner
  let more ← many do
    match ← kind? with
    | some .templateMiddle =>
      let _ ← anyToken
      return some (← sequence inner)
    | _ => return none
  match (← anyToken).kind with
  | .templateTail => return first ++ more.flatten
  | _ => failure

/-! ## Operands -/

/-- Words that are operands by themselves. -/
def operandKeywords : List String := ["this", "super", "null", "true", "false"]

/-- An operand without operators. -/
def primaryExpression (inner : Inner) : Parser Expr := do
  let start ← here
  match ← kind? with
  | some (.word w escaped) =>
    if !escaped && (w == "function" ||
        (w == "async" && (← keywordAhead 1 "function") && !(← lineEndBefore 1))) then
      functionExpression inner
    else if !escaped && w == "class" then return .klass (← inner.klass)
    else if !escaped && (operandKeywords.contains w || w == "import") then
      let _ ← anyToken
      return .compound (← spanFrom start) []
    else
      let name ← name
      return .identifier (← spanFrom start) name
  | some (.string value) =>
    let _ ← anyToken
    return .string (← spanFrom start) value
  | some .number | some .bigint | some .regex | some (.hashName _) =>
    let _ ← anyToken
    return .compound (← spanFrom start) []
  | some .template =>
    let _ ← anyToken
    return .template (← spanFrom start) []
  | some .templateHead =>
    let _ ← anyToken
    let parts ← templateParts inner
    return .template (← spanFrom start) parts
  | some (.punct "(") =>
    let _ ← anyToken
    let parts ← sequence inner
    punct ")"
    match parts with
    | [e] => return e
    | parts => return .compound (← spanFrom start) parts
  | some (.punct "[") =>
    let _ ← anyToken
    let parts ← listUntil "]" (spreadElement inner)
    return .compound (← spanFrom start) parts.flatten
  | some (.punct "\x7b") =>
    let _ ← anyToken
    let parts ← listUntil "\x7d" (objectProperty inner)
    return .compound (← spanFrom start) parts.flatten
  | _ => failure

/-- Arguments of a call, in brackets. -/
def arguments (inner : Inner) : Parser (List Expr) := do
  punct "("
  return (← listUntil ")" (spreadElement inner)).flatten

/-- A name after a dot. -/
def memberName (start : Nat) (object : Expr) : Parser Expr := do
  match (← anyToken).kind with
  | .word name _ => return .member (← spanFrom start) object name
  | .hashName _ => return .compound (← spanFrom start) [object]
  | _ => failure

/-- Type arguments of a call, which arguments must follow. -/
def callTypeArgs (inner : Inner) : Parser Unit := do
  let _ ← typeArgs inner
  match ← kind? with
  | some (.punct "(") | some .template | some .templateHead => return ()
  | _ => failure

/-- One step along a chain of members and calls. -/
def chainStep (inner : Inner) (start : Nat) (object : Expr) : Parser (Option Expr) := do
  match ← kind? with
  | some (.punct ".") =>
    let _ ← anyToken
    return some (← memberName start object)
  | some (.punct "?.") =>
    let _ ← anyToken
    match ← kind? with
    | some (.punct "(") | some (.punct "[") => return some (.compound (← spanFrom start) [object])
    | some (.punct "<") =>
      callTypeArgs inner
      return some (.compound (← spanFrom start) [object])
    | _ =>
      let member ← memberName start object
      return some (.compound member.span [object])
  | some (.punct "[") =>
    let _ ← anyToken
    let index ← sequence inner
    punct "]"
    return some (.compound (← spanFrom start) (object :: index))
  | some (.punct "(") =>
    let args ← arguments inner
    return some (.compound (← spanFrom start) (object :: args))
  | some .template =>
    let _ ← anyToken
    return some (.compound (← spanFrom start) [object])
  | some .templateHead =>
    let _ ← anyToken
    let parts ← templateParts inner
    return some (.compound (← spanFrom start) (object :: parts))
  | some (.punct "!") =>
    if (← read).typed && !(← lineEndBefore 0) then
      let _ ← anyToken
      return some (.compound (← spanFrom start) [object])
    else return none
  | some (.punct "<") =>
    if (← read).typed then
      match ← optionally (callTypeArgs inner) with
      | some _ => return some (.compound (← spanFrom start) [object])
      | none => return none
    else return none
  | _ => return none

/-- What follows `new`: the function that makes an object, or the question which function was
called. -/
def newOperand (inner : Inner) (start : Nat) : Parser Expr := do
  if ← eatPunct "." then
    let _ ← word
    return .compound (← spanFrom start) []
  else
    let callee ← primaryExpression inner
    return .compound callee.span [callee]

/-- An operand with members and calls after it. -/
def chain (inner : Inner) : Parser Expr := do
  let start ← here
  let isNew ← many (do if ← eatKeyword "new" then return some () else return none)
  let first ← if isNew.isEmpty then primaryExpression inner else newOperand inner start
  iterate (chainStep inner start) first

/-! ## Operators -/

/-- Operators before an operand. -/
def prefixOperators : List String := ["+", "-", "!", "~", "++", "--"]

/-- Words that are operators before an operand. -/
def prefixWords : List String := ["typeof", "void", "delete", "await"]

/-- An operator before an operand. -/
def prefixStep (inner : Inner) : Parser (Option Unit) := do
  match ← kind? with
  | some (.punct "<") =>
    if (← read).typed then
      let _ ← typeArgs inner
      return some ()
    else failure
  | some (.punct text) =>
    if prefixOperators.contains text then
      let _ ← anyToken
      return some ()
    else return none
  | some (.word w false) =>
    let operandFollows := match ← kindAhead? 1 with
      | some (.punct text) => ["(", "[", "\x7b", "+", "-", "!", "~", "++", "--"].contains text
      | some (.word w _) => w != "in" && w != "instanceof" && w != "of"
      | some _ => true
      | none => false
    if prefixWords.contains w && (w != "await" || operandFollows) then
      let _ ← anyToken
      return some ()
    else return none
  | _ => return none

/-- Operators between two operands, apart from those with angle brackets. -/
def binaryOperators : List String :=
  ["+", "-", "*", "/", "%", "**", "&", "^", "|", "&&", "||", "??", "==", "!=", "===", "!==", "<="]

/-- Words that are operators between two operands. -/
def binaryWords : List String := ["instanceof", "in", "as", "satisfies"]

/-- Punctuation after which angle brackets before it are operators: it can begin an operand. -/
def operandPunctuation : List String :=
  ["<", ">", "+", "-", "(", "[", "\x7b", "!", "~", "++", "--", "@"]

/-- Whether a token may stand after type arguments that no call follows. -/
def followsTypeArgs : Option TokenKind → Bool
  | some (.punct text) => !operandPunctuation.contains text
  | some (.word w false) => binaryWords.contains w
  | some .templateMiddle | some .templateTail | none => true
  | some _ => false

/-- Type arguments of an operand that is not called. -/
def instantiation (inner : Inner) : Parser Unit := do
  let _ ← typeArgs inner
  let compares := (← atPunct "<") || (← atPunct ">") || (← atPunct "+") || (← atPunct "-")
  if followsTypeArgs (← kind?) || ((← lineEndBefore 0) && !compares) then return () else failure

/-- Read type arguments of an operand that is not called, if there are any. -/
def eatInstantiation (inner : Inner) : Parser Bool := do
  if (← read).typed && (← atPunct "<") then
    return (← optionally (instantiation inner)).isSome
  else return false

/-- An operator after an operand, on the same line; whether there is one. -/
def postfixOperator : Parser Bool := do
  if ← lineEndBefore 0 then return false
  else if ← eatPunct "++" then return true
  else eatPunct "--"

/-- An operand with the operators that belong to it. -/
def unaryExpression (inner : Inner) : Parser Expr := do
  let start ← here
  let operators ← many (prefixStep inner)
  let operand ← chain inner
  let instantiated ← eatInstantiation inner
  let postfixed ← postfixOperator
  if operators.isEmpty && !instantiated && !postfixed then return operand
  else return .compound (← spanFrom start) [operand]

/-- Operators that assign. -/
def assignmentOperators : List String :=
  ["=", "+=", "-=", "*=", "/=", "%=", "**=", "&=", "|=", "^=", "&&=", "||=", "??="]

/-- The rest of an operator that begins with an angle bracket: the tokens that follow without a
gap. -/
def angleRest (texts : List String) : Parser Unit := do
  let _ ← many do
    match ← ahead? 0 with
    | some t =>
      let adjacent := t.span.start == (← get).lastStop
      let fits := texts.any fun text => t.kind == .punct text
      if adjacent && fits then return some (← anyToken) else return none
    | none => return none

/-- What follows an operand. -/
inductive Continuation where
  /-- Nothing that belongs to the expression. -/
  | done
  /-- An operand after an operator. -/
  | operand
  /-- A type after `as` or `satisfies`. -/
  | type
  /-- A value to assign. -/
  | value

/-- Read an operator. -/
def continuation : Parser Continuation := do
  match ← kind? with
  | some (.punct "<") =>
    let _ ← anyToken
    angleRest ["<", "<="]
    return .operand
  | some (.punct ">") =>
    let _ ← anyToken
    angleRest [">", "="]
    return .operand
  | some (.punct text) =>
    if binaryOperators.contains text then anyToken *> pure .operand
    else if assignmentOperators.contains text then anyToken *> pure .value
    else return .done
  | some (.word "instanceof" false) => anyToken *> pure .operand
  | some (.word "in" false) =>
    if (← read).inOperator then anyToken *> pure .operand else return .done
  | some (.word w false) =>
    if (← read).typed && (w == "as" || w == "satisfies") && !(← lineEndBefore 0) then
      anyToken *> pure .type
    else return .done
  | _ => return .done

/-- One more operator and what it applies to. -/
def binaryStep (inner : Inner) (parts : List Expr) : Parser (Option (List Expr)) := do
  match ← continuation with
  | .done => return none
  | .operand => return some ((← unaryExpression inner) :: parts)
  | .value => return some ((← inner.expression) :: parts)
  | .type =>
    if (← atKeyword "const") then
      let _ ← anyToken
    else
      let _ ← inner .type
    return some parts

/-- The two results of a condition, after the question mark. -/
def conditionalResults (inner : Inner) : Parser (List Expr) := do
  let yes (arrowResults : Bool) : Parser Expr := do
    let e ← withReader (fun mode => { mode with inOperator := true, arrowResults }) inner.expression
    punct ":"
    return e
  let first ← match ← optionally (yes true) with
    | some e => pure e
    | none => yes false
  return [first, ← inner.expression]

/-- Operands with operators between them. -/
def operatorExpression (inner : Inner) : Parser Expr := do
  let start ← here
  let first ← unaryExpression inner
  let before := (← get).lastStop
  let parts ← iterate (binaryStep inner) [first]
  let results ← if ← eatPunct "?" then conditionalResults inner else pure []
  if (← get).lastStop == before then return first
  else return .compound (← spanFrom start) (parts.reverse ++ results)

/-- What a generator hands out. -/
def yieldExpression (inner : Inner) : Parser Expr := do
  let start ← here
  keyword "yield"
  let _ ← eatPunct "*"
  let value ← if ← lineEndBefore 0 then pure none else optionally inner.expression
  return .compound (← spanFrom start) value.toList

/-- An expression without commas at its top. -/
def expressionGrammar (inner : Inner) : Parser Expr := do
  if ← mayBeArrow then
    match ← optionally (arrowFunction inner) with
    | some e => return e
    | none => operatorExpression inner
  else if (← atKeyword "yield") && !(← punctAhead 1 "=") && !(← punctAhead 1 ".") then
    match ← optionally (yieldExpression inner) with
    | some e => return e
    | none => operatorExpression inner
  else operatorExpression inner

end Interop.Source.Grammar
