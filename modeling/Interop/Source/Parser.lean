import Interop.Source.Syntax
import Interop.Source.Token

/-!
# Parsers over tokens

A parser reads tokens from the front of a list and fails without a reason; a file that no parser
accepts is rejected as a whole.

* `optionally`, `lookingAt` — try a parser and take back what it read.
* `many`, `iterate` — repeat a parser as long as it finds something.  The tokens that are left bound
  the repetitions, since each takes at least one.
-/

namespace Interop.Source

/-- What the place of a construct allows. -/
structure Mode where
  /-- Whether types and declarations of types may be written at all. -/
  typed : Bool
  /-- Whether declarations only describe, so that values need not be given. -/
  ambient : Bool
  /-- Whether a type may be followed by the condition of a conditional type. -/
  conditionals : Bool := true
  /-- Whether `in` is an operator. -/
  inOperator : Bool := true
  /-- Whether an arrow function may declare its result. -/
  arrowResults : Bool := true

/-- The tokens that are left, and where the last token that was read ends. -/
structure ParserState where
  tokens : List Token
  lastStop : Nat

/-- A parser of something. -/
abbrev Parser := ReaderT Mode (StateT ParserState Option)

namespace Parser

/-! ## Tokens -/

/-- The token a number of places ahead. -/
def ahead? (n : Nat) : Parser (Option Token) :=
  return (← get).tokens[n]?

/-- The kind of the token a number of places ahead. -/
def kindAhead? (n : Nat) : Parser (Option TokenKind) :=
  return (← ahead? n).map (·.kind)

/-- The kind of the next token. -/
def kind? : Parser (Option TokenKind) :=
  kindAhead? 0

/-- Read any token. -/
def anyToken : Parser Token := do
  let s ← get
  match s.tokens with
  | [] => failure
  | t :: rest =>
    set (⟨rest, t.span.stop⟩ : ParserState)
    return t

/-- Where the next token starts. -/
def here : Parser Nat := do
  let s ← get
  match s.tokens with
  | [] => return s.lastStop
  | t :: _ => return t.span.start

/-- The span from a place to the last token that was read. -/
def spanFrom (start : Nat) : Parser Span :=
  return ⟨start, (← get).lastStop⟩

/-- Whether a line ends before the token a number of places ahead, or the text ends there. -/
def lineEndBefore (n : Nat) : Parser Bool :=
  return ((← ahead? n).map (·.afterLineEnd)).getD true

/-- Whether the token a number of places ahead is some punctuation. -/
def punctAhead (n : Nat) (text : String) : Parser Bool :=
  return (← kindAhead? n) == some (.punct text)

/-- Whether the next token is some punctuation. -/
def atPunct (text : String) : Parser Bool :=
  punctAhead 0 text

/-- Whether the token a number of places ahead is some keyword. -/
def keywordAhead (n : Nat) (name : String) : Parser Bool :=
  return (← kindAhead? n) == some (.word name false)

/-- Whether the next token is some keyword. -/
def atKeyword (name : String) : Parser Bool :=
  keywordAhead 0 name

/-- Read some punctuation, if it is there. -/
def eatPunct (text : String) : Parser Bool := do
  if ← atPunct text then
    let _ ← anyToken
    return true
  else return false

/-- Read a keyword, if it is there. -/
def eatKeyword (name : String) : Parser Bool := do
  if ← atKeyword name then
    let _ ← anyToken
    return true
  else return false

/-- Read some punctuation. -/
def punct (text : String) : Parser Unit := do
  if ← eatPunct text then return () else failure

/-- Read a keyword. -/
def keyword (name : String) : Parser Unit := do
  if ← eatKeyword name then return () else failure

/-! ## Repeating and taking back -/

/-- Try a parser; when it fails, nothing has been read. -/
def optionally {α : Type} (p : Parser α) : Parser (Option α) :=
  fun mode s => match p mode s with
    | some (a, s) => some (some a, s)
    | none => some (none, s)

/-- Whether a parser would succeed; nothing is read. -/
def lookingAt {α : Type} (p : Parser α) : Parser Bool :=
  fun mode s => some ((p mode s).isSome, s)

/-- Apply a step to a value as long as it gives another. -/
def iterate {α : Type} (step : α → Parser (Option α)) (a : α) : Parser α := do
  loop (← get).tokens.length a
where
  /-- The repetition with a bound on how often. -/
  loop : Nat → α → Parser α
    | 0, a => return a
    | fuel + 1, a => do
      match ← step a with
      | some b => loop fuel b
      | none => return a

/-- Repeat a parser as long as it gives something. -/
def many {α : Type} (p : Parser (Option α)) : Parser (List α) := do
  let items ← iterate (fun items => return (← p).map (· :: items)) []
  return items.reverse

/-- Items with commas between them, up to and with a closing token.  A comma may stand after the last
one. -/
def listUntil {α : Type} (close : String) (item : Parser α) : Parser (List α) := do
  let items ← many do
    if ← atPunct close then return none
    else
      let x ← item
      if !(← atPunct close) then punct ","
      return some x
  punct close
  return items

/-- At least one item, with commas between them. -/
def commaSeparated {α : Type} (item : Parser α) : Parser (List α) := do
  let first ← item
  let more ← many do
    if ← eatPunct "," then return some (← item) else return none
  return first :: more

/-! ## Names -/

/-- Words that name nothing. -/
def reservedWords : List String :=
  ["break", "case", "catch", "class", "const", "continue", "debugger", "default", "delete", "do",
    "else", "enum", "export", "extends", "false", "finally", "for", "function", "if", "import", "in",
    "instanceof", "new", "null", "return", "super", "switch", "this", "throw", "true", "try",
    "typeof", "var", "void", "while", "with"]

/-- Whether a token is a name that something can be bound to. -/
def isBindable : Option TokenKind → Bool
  | some (.word name _) => !reservedWords.contains name
  | _ => false

/-- Whether a token is a word of any kind. -/
def isWord : Option TokenKind → Bool
  | some (.word ..) => true
  | _ => false

/-- Read a word of any kind. -/
def word : Parser String := do
  match (← anyToken).kind with
  | .word name _ => return name
  | _ => failure

/-- Read a name that something can be bound to. -/
def name : Parser String := do
  let name ← word
  if reservedWords.contains name then failure else return name

/-- Whether a token can be the name of a property. -/
def isKeyStart : Option TokenKind → Bool
  | some (.word ..) | some (.string _) | some .number | some .bigint | some (.hashName _) => true
  | some (.punct text) => text == "["
  | _ => false

/-- The end of a statement: a semicolon, or a place where one may be left out. -/
def semicolon : Parser Unit := do
  if ← eatPunct ";" then return ()
  else if (← atPunct "\x7d") || (← lineEndBefore 0) then return ()
  else failure

end Parser

/-! ## Recursion between constructs -/

/-- The constructs that may contain one another without end. -/
inductive Category where
  | type
  | binding
  | expression
  | klass
  | statement

/-- What a parser of a category gives. -/
def Category.Tree : Category → Type
  | .type => TypeNode
  | .binding => Binding
  | .expression => Expr
  | .klass => ClassNode
  | .statement => Statement

/-- Parsers of the constructs inside another one. -/
abbrev Inner := (c : Category) → Parser c.Tree

namespace Inner

/-- A type inside something that closes, where every type may stand. -/
def type (inner : Inner) : Parser TypeNode :=
  withReader (fun mode => { mode with conditionals := true }) (inner .type)

/-- A binding. -/
def binding (inner : Inner) : Parser Binding := inner .binding

/-- An expression without commas at its top. -/
def expression (inner : Inner) : Parser Expr := inner .expression

/-- An expression without commas at its top, inside something that closes. -/
def enclosed (inner : Inner) : Parser Expr :=
  withReader (fun mode => { mode with inOperator := true, arrowResults := true }) (inner .expression)

/-- A class. -/
def klass (inner : Inner) : Parser ClassNode := inner .klass

/-- A statement. -/
def statement (inner : Inner) : Parser Statement :=
  withReader (fun mode => { mode with inOperator := true, arrowResults := true }) (inner .statement)

end Inner

end Interop.Source
