import Interop.Source.Grammar.Statement
import Interop.Source.Lexer

/-!
# Reading a file

* `Inner.within` — the parsers of all categories, with a bound on how deep constructs may stand inside
  one another.
* `parse` — the syntax tree of a text, if it has one.
-/

namespace Interop.Source

/-- The parser of a category, in terms of those inside it. -/
def Category.grammar (inner : Inner) : (c : Category) → Parser c.Tree
  | .type => Grammar.typeGrammar inner
  | .binding => Grammar.bindingGrammar inner
  | .expression => Grammar.expressionGrammar inner
  | .klass => Grammar.classGrammar inner
  | .statement => Grammar.statementGrammar inner

/-- The parsers of all categories, for constructs that lie at most so deep inside one another. -/
def Inner.within : Nat → Inner
  | 0, _ => failure
  | depth + 1, c => c.grammar (Inner.within depth)

/-- The syntax tree of some tokens.  From one construct to one inside it with no token between there
are at most three steps, so twice that many per token suffice. -/
def parseTokens (mode : Mode) (tokens : List Token) : Option Program :=
  (Grammar.programGrammar (Inner.within (6 * tokens.length + 6)) mode ⟨tokens, 0⟩).map (·.1)

/-! ## Files -/

/-- The languages a file can be written in. -/
inductive Language where
  /-- Declarations only. -/
  | declarations
  /-- Declarations and code. -/
  | typed
  /-- Code without types. -/
  | untyped
  deriving DecidableEq, Repr, Inhabited

/-- What may be written at the top of a file. -/
def Language.mode : Language → Mode
  | .declarations => { typed := true, ambient := true }
  | .typed => { typed := true, ambient := false }
  | .untyped => { typed := false, ambient := false }

/-- The syntax tree of a text. -/
def parse (language : Language) (source : String) : Option Program := do
  parseTokens language.mode (← tokenize source)

end Interop.Source
