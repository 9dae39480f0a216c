import Interop.Source.Grammar.Class

/-!
# The grammar of statements and declarations

* `statementGrammar` — a statement.
* `programGrammar` — a file.
-/

namespace Interop.Source.Grammar

open Interop.Source.Parser

/-! ## Interfaces, aliases and enums -/

/-- An interface, from its keyword on. -/
def interfaceFrom (inner : Inner) (start : Nat) : Parser Declaration := do
  keyword "interface"
  let name ← name
  let typeParams ← typeParams inner
  let bases ← if ← eatKeyword "extends" then commaSeparated (heritageNode inner) else pure []
  let members ← memberList inner
  return .interface ⟨← spanFrom start, name, typeParams, bases, members⟩

/-- What an alias stands for.  A keyword marks types that the compiler provides. -/
def aliasBody (inner : Inner) : Parser TypeNode := do
  let start ← here
  if (← atKeyword "intrinsic") && !(← punctAhead 1 ".") then
    let _ ← anyToken
    return ⟨← spanFrom start, .unsupported .otherForm []⟩
  else inner.type

/-- An alias, from its keyword on. -/
def aliasFrom (inner : Inner) (start : Nat) : Parser Declaration := do
  keyword "type"
  let name ← name
  let typeParams ← typeParams inner
  punct "="
  let body ← aliasBody inner
  semicolon
  return .alias ⟨← spanFrom start, name, typeParams, body⟩

/-- The name of an enum value. -/
def enumKey (inner : Inner) : Parser (Option String) := do
  match (← anyToken).kind with
  | .word name _ => return some name
  | .string value => return some value
  | .punct text =>
    if text == "[" then
      let _ ← inner.enclosed
      punct "]"
      return none
    else failure
  | _ => failure

/-- A value of an enum. -/
def enumMember (inner : Inner) : Parser EnumMemberNode := do
  let start ← here
  let name ← enumKey inner
  let isText := match ← defaultValue inner with
    | some (.string ..) | some (.template ..) => true
    | _ => false
  return ⟨← spanFrom start, name, isText⟩

/-- An enum, from its keywords on. -/
def enumFrom (inner : Inner) (start : Nat) : Parser Declaration := do
  let isConst ← eatKeyword "const"
  keyword "enum"
  let name ← name
  punct "\x7b"
  let members ← listUntil "\x7d" (enumMember inner)
  return .enum ⟨← spanFrom start, name, isConst, members⟩

/-! ## Functions and variables -/

/-- A function, from its keywords on.  Only one that is declared elsewhere, or is the default of its
module, may have no name. -/
def functionFrom (inner : Inner) (start : Nat) (mayBeUnnamed : Bool) : Parser FunctionNode := do
  let _ ← eatKeyword "async"
  keyword "function"
  let _ ← eatPunct "*"
  let name ← if isBindable (← kind?) then some <$> name
    else if mayBeUnnamed then pure none
    else failure
  let signature ← signatureNode inner
  let body ← methodBody inner
  return ⟨← spanFrom start, name, signature, body⟩

/-- A variable. -/
def variableNode (inner : Inner) : Parser VariableNode := do
  let start ← here
  let binding ← inner.binding
  if (← read).typed then
    let _ ← eatPunct "!"
  let type ← typeNote inner
  let value ← if ← eatPunct "=" then some <$> inner.expression else pure none
  return ⟨← spanFrom start, binding, type, value⟩

/-- Variables, from their keyword on. -/
def variableList (inner : Inner) : Parser (VariableKind × List VariableNode) := do
  let kind := match ← word with
    | "var" => VariableKind.var
    | "const" => .const
    | _ => .lexical
  return (kind, ← commaSeparated (variableNode inner))

/-- Whether a variable may stand without a value. -/
def mayLackValue (kind : VariableKind) (ambient : Bool) (node : VariableNode) : Bool :=
  node.value.isSome || ambient || (kind != .const && node.binding.name?.isSome)

/-- A declaration of variables, with its end. -/
def variablesFrom (inner : Inner) : Parser Declaration := do
  let (kind, nodes) ← variableList inner
  semicolon
  let ambient := (← read).ambient
  if nodes.all (mayLackValue kind ambient) then return .variables kind nodes else failure

/-! ## Namespaces -/

/-- A namespace, from its name on.  Dots in the name stand for namespaces inside one another. -/
def nameSpaceBody (inner : Inner) (start : Nat) : List String → Parser Declaration
  | [] => failure
  | [last] => do
    let body ← functionBody inner
    return .nameSpace (← spanFrom start) (.identifier last) body
  | first :: rest => do
    let inside ← nameSpaceBody inner start rest
    return .nameSpace (← spanFrom start) (.identifier first) [.declaration true inside]

/-- A namespace or module, from its keyword on. -/
def nameSpaceFrom (inner : Inner) (start : Nat) : Parser Declaration := do
  let _ ← word
  match ← kind? with
  | some (.string value) =>
    let _ ← anyToken
    if ← atPunct "\x7b" then
      let body ← functionBody inner
      return .nameSpace (← spanFrom start) (.string value) body
    else
      semicolon
      return .nameSpace (← spanFrom start) (.string value) []
  | _ => nameSpaceBody inner start (← dotted (← name))

/-! ## Declarations -/

/-- Whether the tokens some places ahead begin a declaration. -/
def declarationAhead (n : Nat) : Parser Bool := do
  let next ← kindAhead? (n + 1)
  let sameLine := !(← lineEndBefore (n + 1))
  let typed := (← read).typed
  let string := match next with | some (.string _) => true | _ => false
  match ← kindAhead? n with
  | some (.word w false) =>
    match w with
    | "var" | "const" | "class" | "function" => return true
    | "enum" => return typed
    | "let" => return isBindable next || next == some (.punct "[") || next == some (.punct "\x7b")
    | "async" => return sameLine && next == some (.word "function" false)
    | "interface" | "type" | "namespace" => return typed && sameLine && isBindable next
    | "module" => return typed && sameLine && (isBindable next || string)
    | "abstract" => return typed && sameLine && next == some (.word "class" false)
    | _ => return false
  | _ => return false

/-- A declaration, from its keyword on; its place may begin before. -/
def declarationFrom (inner : Inner) (start : Nat) (mayBeUnnamed : Bool) : Parser Declaration := do
  match ← kind? with
  | some (.word w _) =>
    match w with
    | "interface" => interfaceFrom inner start
    | "type" => aliasFrom inner start
    | "enum" => enumFrom inner start
    | "const" => if ← keywordAhead 1 "enum" then enumFrom inner start else variablesFrom inner
    | "var" | "let" => variablesFrom inner
    | "namespace" | "module" => nameSpaceFrom inner start
    | "abstract" =>
      let _ ← anyToken
      return .klass (← classFrom inner start)
    | "class" => return .klass (← classFrom inner start)
    | _ => return .function (← functionFrom inner start mayBeUnnamed)
  | _ => failure

/-- Whether the next tokens add declarations to the global scope. -/
def globalAhead (n : Nat) : Parser Bool := do
  return (← read).typed && (← keywordAhead n "global") && (← punctAhead (n + 1) "\x7b")

/-- Whether the next token says that what follows is declared elsewhere. -/
def declareAhead : Parser Bool := do
  let follows := (← globalAhead 1) || (← keywordAhead 1 "import") || (← declarationAhead 1)
  return (← read).typed && (← atKeyword "declare") && !(← lineEndBefore 1) && follows

/-! ## Imports and exports -/

/-- A name or string on either side of `as`. -/
def moduleExportName : Parser String := do
  match (← anyToken).kind with
  | .word name _ => return name
  | .string value => return value
  | _ => failure

/-- Whether the token a number of places ahead is a name or string on a side of `as`. -/
def exportNameAhead (n : Nat) : Parser Bool := do
  match ← kindAhead? n with
  | some (.word ..) | some (.string _) => return true
  | _ => return false

/-- Whether `type` stands before the name of an entry, and is not its name.  It is the name where
`as` and one more name follow. -/
def atTypeOnly : Parser Bool := do
  if !(← atKeyword "type") then return false
  else if !(← keywordAhead 1 "as") then exportNameAhead 1
  else if ← keywordAhead 2 "as" then exportNameAhead 3
  else return !(← exportNameAhead 2)

/-- An entry in the braces of an export. -/
def exportSpecifier : Parser Unit := do
  if ← atTypeOnly then
    let _ ← anyToken
  let _ ← moduleExportName
  if ← eatKeyword "as" then
    let _ ← moduleExportName

/-- An entry in the braces of an import; the name it has here. -/
def importSpecifier : Parser String := do
  if ← atTypeOnly then
    let _ ← anyToken
  if ← keywordAhead 1 "as" then
    let _ ← moduleExportName
    keyword "as"
  name

/-- Entries in braces. -/
def specifiers {α : Type} (entry : Parser α) : Parser (List α) := do
  punct "\x7b"
  listUntil "\x7d" entry

/-- A string. -/
def moduleString : Parser Unit := do
  match (← anyToken).kind with
  | .string _ => return ()
  | _ => failure

/-- The module that something comes from, and the end of the statement. -/
def fromModule (inner : Inner) : Parser Unit := do
  moduleString
  if (← eatKeyword "with") || (← eatKeyword "assert") then
    punct "\x7b"
    let _ ← listUntil "\x7d" (objectProperty inner)
  semicolon

/-- What an import gives a name of its own: a module, or another name. -/
def importEquals : Parser Unit := do
  punct "="
  if (← atKeyword "require") && (← punctAhead 1 "(") then
    let _ ← anyToken
    punct "("
    moduleString
    punct ")"
  else
    let _ ← dotted (← name)
  semicolon

/-- The names after a default import, or instead of it. -/
def importedNames : Parser (List String) := do
  if ← eatPunct "*" then
    keyword "as"
    return [← name]
  else specifiers importSpecifier

/-- An import, after its keyword. -/
def importRest (inner : Inner) : Parser Statement := do
  if let some (.string _) ← kind? then
    fromModule inner
    return .imports []
  let typeOnly := (← atKeyword "type") && !(← punctAhead 1 ",") && !(← punctAhead 1 "=") &&
    (!(← keywordAhead 1 "from") || (← keywordAhead 2 "from"))
  if typeOnly then
    let _ ← anyToken
  if isBindable (← kind?) then
    let first ← name
    if ← atPunct "=" then
      importEquals
      return .imports [first]
    let more ← if ← eatPunct "," then importedNames else pure []
    keyword "from"
    fromModule inner
    return .imports (first :: more)
  else
    let names ← importedNames
    keyword "from"
    fromModule inner
    return .imports names

/-- An export of names in braces or of a whole module. -/
def exportNames (inner : Inner) : Parser Statement := do
  let _ ← eatKeyword "type"
  if ← eatPunct "*" then
    if ← eatKeyword "as" then
      let _ ← moduleExportName
    keyword "from"
    fromModule inner
  else
    let _ ← specifiers exportSpecifier
    if ← eatKeyword "from" then fromModule inner else semicolon
  return .otherExport []

/-- The default of a module. -/
def exportDefault (inner : Inner) : Parser Statement := do
  let start ← here
  decorators inner
  let isAbstract := (← read).typed && (← atKeyword "abstract") && (← keywordAhead 1 "class")
  if (← atKeyword "class") || isAbstract then
    let _ ← eatKeyword "abstract"
    let node ← classFrom inner start
    return if node.name.isSome then .declaration true (.klass node) else .otherExport [.klass node]
  else if (← atKeyword "function") || ((← atKeyword "async") && (← keywordAhead 1 "function")) then
    return .declaration true (.function (← functionFrom inner start true))
  else if (← read).typed && (← atKeyword "interface") && isBindable (← kindAhead? 1) &&
      !(← lineEndBefore 1) then
    return .declaration true (← interfaceFrom inner start)
  else
    let e ← inner.expression
    semicolon
    return .otherExport [e]

/-- A declaration that says it is declared elsewhere, or any other. -/
def declared (inner : Inner) : Parser Statement := do
  let start ← here
  if ← declareAhead then
    keyword "declare"
    withReader (fun mode => { mode with ambient := true }) do
      if ← globalAhead 0 then
        let _ ← anyToken
        return .global (← functionBody inner)
      else if ← eatKeyword "import" then importRest inner
      else return .declaration false (← declarationFrom inner start true)
  else return .declaration false (← declarationFrom inner start false)

/-- Mark a declaration as exported. -/
def exported : Statement → Statement
  | .declaration _ d => .declaration true d
  | s => s

/-- An export, after its keyword. -/
def exportRest (inner : Inner) : Parser Statement := do
  if ← eatKeyword "default" then exportDefault inner
  else if (← read).typed && (← eatPunct "=") then
    let e ← inner.expression
    semicolon
    return .exportAssignment e
  else if (← read).typed && (← atKeyword "as") && (← keywordAhead 1 "namespace") then
    let _ ← anyToken
    let _ ← anyToken
    let _ ← name
    semicolon
    return .otherExport []
  else if (← atPunct "*") || (← atPunct "\x7b") ||
      ((← atKeyword "type") && ((← punctAhead 1 "*") || (← punctAhead 1 "\x7b"))) then
    exportNames inner
  else if ← eatKeyword "import" then
    let _ ← importRest inner
    return .otherExport []
  else
    decorators inner
    return exported (← declared inner)

/-! ## Other statements -/

/-- Expressions in brackets. -/
def bracketedSequence (inner : Inner) : Parser (List Expr) := do
  punct "("
  let parts ← sequence inner
  punct ")"
  return parts

/-- What stands in the brackets of a loop before the first semicolon, or up to `of` or `in`. -/
def loopStart (inner : Inner) : Parser (List Expr × List Statement) :=
  withReader (fun mode => { mode with inOperator := false }) do
    if ← atPunct ";" then return ([], [])
    else if ← declarationAhead 0 then
      let (kind, nodes) ← variableList inner
      return ([], [.declaration false (.variables kind nodes)])
    else return (← commaSeparated inner.expression, [])

/-- Expressions, if there are any before some punctuation. -/
def sequenceBefore (inner : Inner) (text : String) : Parser (List Expr) := do
  if ← atPunct text then return [] else sequence inner

/-- A loop over values, after its keyword. -/
def forRest (inner : Inner) : Parser Statement := do
  let _ ← eatKeyword "await"
  punct "("
  let (parts, scope) ← loopStart inner
  let more ← if (← eatKeyword "of") || (← eatKeyword "in") then sequence inner
    else do
      punct ";"
      let condition ← sequenceBefore inner ";"
      punct ";"
      pure (condition ++ (← sequenceBefore inner ")"))
  punct ")"
  let body ← inner.statement
  return .block (scope ++ [.compound (parts ++ more) [body]])

/-- One case of a choice: what is compared, and what is done. -/
def switchCase (inner : Inner) : Parser Statement := do
  let isDefault ← eatKeyword "default"
  let parts ← if isDefault then pure [] else do
    keyword "case"
    sequence inner
  punct ":"
  let body ← many do
    if (← atPunct "\x7d") || (← atKeyword "case") || (← atKeyword "default") then return none
    else return some (← inner.statement)
  return .compound parts body

/-- The cases of a choice, in braces. -/
def switchCases (inner : Inner) : Parser (List Statement) := do
  punct "\x7b"
  let items ← many do
    if ← atPunct "\x7d" then return none else return some (← switchCase inner)
  punct "\x7d"
  return items

/-- What is caught, and what is done about it. -/
def catchBlock (inner : Inner) : Parser (List Statement) := do
  if ← eatKeyword "catch" then
    if ← eatPunct "(" then
      let _ ← inner.binding
      let _ ← typeNote inner
      punct ")"
    return [.block (← functionBody inner)]
  else return []

/-- What is done at the end in any case. -/
def finallyBlock (inner : Inner) : Parser (List Statement) := do
  if ← eatKeyword "finally" then return [.block (← functionBody inner)] else return []

/-- An expression as a statement. -/
def expressionStatement (inner : Inner) : Parser Statement := do
  let parts ← sequence inner
  semicolon
  return .compound parts []

/-- A statement that begins with a keyword which names nothing. -/
def keywordStatement (inner : Inner) (w : String) : Parser Statement := do
  match w with
  | "if" =>
    let _ ← anyToken
    let condition ← bracketedSequence inner
    let yes ← inner.statement
    let no ← if ← eatKeyword "else" then pure [← inner.statement] else pure []
    return .compound condition (yes :: no)
  | "for" => anyToken *> forRest inner
  | "while" | "with" =>
    let _ ← anyToken
    let condition ← bracketedSequence inner
    return .compound condition [← inner.statement]
  | "do" =>
    let _ ← anyToken
    let body ← inner.statement
    keyword "while"
    let condition ← bracketedSequence inner
    let _ ← eatPunct ";"
    return .compound condition [body]
  | "switch" =>
    let _ ← anyToken
    let value ← bracketedSequence inner
    return .compound value [.block (← switchCases inner)]
  | "try" =>
    let _ ← anyToken
    let body ← functionBody inner
    let handlers := (← catchBlock inner) ++ (← finallyBlock inner)
    if handlers.isEmpty then failure
    return .compound [] (.block body :: handlers)
  | "return" =>
    let _ ← anyToken
    let ends := (← atPunct ";") || (← atPunct "\x7d") || (← lineEndBefore 0)
    let value ← if ends then pure [] else sequence inner
    semicolon
    return .compound value []
  | "throw" =>
    let _ ← anyToken
    if ← lineEndBefore 0 then failure
    expressionStatement inner
  | "break" | "continue" =>
    let _ ← anyToken
    if isBindable (← kind?) && !(← lineEndBefore 0) then
      let _ ← name
    semicolon
    return .compound [] []
  | "debugger" =>
    let _ ← anyToken
    semicolon
    return .compound [] []
  | _ => expressionStatement inner

/-- A statement. -/
def statementGrammar (inner : Inner) : Parser Statement := do
  match ← kind? with
  | some (.punct "\x7b") => return .block (← functionBody inner)
  | some (.punct ";") => anyToken *> pure (.compound [] [])
  | some (.punct "@") =>
    decorators inner
    if ← eatKeyword "export" then exportRest inner else declared inner
  | some (.word w false) =>
    if (← declarationAhead 0) || (← declareAhead) then declared inner
    else if ← globalAhead 0 then
      let _ ← anyToken
      return .global (← functionBody inner)
    else if w == "import" && !(← punctAhead 1 "(") && !(← punctAhead 1 ".") then
      anyToken *> importRest inner
    else if w == "export" then anyToken *> exportRest inner
    else if isBindable (← kind?) && (← punctAhead 1 ":") then
      let _ ← anyToken
      let _ ← anyToken
      inner.statement
    else keywordStatement inner w
  | _ => expressionStatement inner

/-- The statements of a file. -/
def programGrammar (inner : Inner) : Parser Program := do
  let body ← many do
    if (← get).tokens.isEmpty then return none else return some (← inner.statement)
  if (← get).tokens.isEmpty then return ⟨body⟩ else failure

end Interop.Source.Grammar
