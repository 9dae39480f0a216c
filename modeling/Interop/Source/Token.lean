import Interop.Span

/-!
# Tokens
-/

namespace Interop.Source

/-- What a token is. -/
inductive TokenKind where
  /-- A name or keyword.  One that is written with an escape is never a keyword. -/
  | word (name : String) (escaped : Bool)
  /-- A private name, without its mark. -/
  | hashName (name : String)
  /-- A string, by its value. -/
  | string (value : String)
  | number
  | bigint
  | regex
  /-- A template without substitutions. -/
  | template
  /-- A template up to its first substitution. -/
  | templateHead
  /-- A template between two substitutions. -/
  | templateMiddle
  /-- A template after its last substitution. -/
  | templateTail
  | punct (text : String)
  deriving DecidableEq, Repr, Inhabited

/-- A token, its place, and whether a line ends before it. -/
structure Token where
  kind : TokenKind
  span : Span
  afterLineEnd : Bool
  deriving DecidableEq, Repr, Inhabited

end Interop.Source
