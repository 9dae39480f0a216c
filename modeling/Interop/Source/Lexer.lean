import Interop.Source.Character
import Interop.Source.Token

/-!
# From text to tokens

* `tokenize` — all tokens of a text; `none` when some part of it is no token.

A slash begins a regular expression where no operand stands before it, and `>` and `<` are tokens of
their own, so that nested type arguments close one by one.  A closing brace that ends a substitution
continues its template; the lexer counts the braces open in each substitution.
-/

namespace Interop.Source

/-! ## Escapes -/

/-- The code point after `\u`: four digits, or any number of them in braces. -/
def scanCodePoint : List Char → Option (Nat × List Char)
  | '\x7b' :: cs =>
    match cs.takeWhile isHexDigit, cs.dropWhile isHexDigit with
    | d :: ds, '\x7d' :: rest =>
      let value := hexValue (d :: ds)
      if value ≤ 0x10ffff then some (value, rest) else none
    | _, _ => none
  | a :: b :: c :: d :: rest =>
    if [a, b, c, d].all isHexDigit then some (hexValue [a, b, c, d], rest) else none
  | _ => none

/-- The digits of an octal escape of which the first is known, at most three and below 256. -/
def scanOctal (first : Char) (cs : List Char) : Nat × List Char :=
  let isOctal (c : Char) : Bool := '0' ≤ c && c ≤ '7'
  let room := if first ≤ '3' then 2 else 1
  let more := (cs.take room).takeWhile isOctal
  (more.foldl (fun n c => n * 8 + (c.toNat - '0'.toNat)) (first.toNat - '0'.toNat), cs.drop more.length)

/-- The code points that an escape after a backslash stands for. -/
def scanEscape : List Char → Option (List Nat × List Char)
  | [] => none
  | 'n' :: cs => some ([10], cs)
  | 't' :: cs => some ([9], cs)
  | 'r' :: cs => some ([13], cs)
  | 'b' :: cs => some ([8], cs)
  | 'f' :: cs => some ([12], cs)
  | 'v' :: cs => some ([11], cs)
  | '\r' :: '\n' :: cs => some ([], cs)
  | 'x' :: cs =>
    match cs with
    | a :: b :: rest =>
      if isHexDigit a && isHexDigit b then some ([hexValue [a, b]], rest) else none
    | _ => none
  | 'u' :: cs => (scanCodePoint cs).map fun (code, rest) => ([code], rest)
  | c :: cs =>
    if isLineEnd c then some ([], cs)
    else if '0' ≤ c && c ≤ '7' then
      let (code, rest) := scanOctal c cs
      some ([code], rest)
    else some ([c.toNat], cs)

/-! ## Strings -/

/-- Whether a code point is the first half of a surrogate pair. -/
def isHighSurrogate (code : Nat) : Bool := 0xd800 ≤ code && code < 0xdc00

/-- Whether a code point is the second half of a surrogate pair. -/
def isLowSurrogate (code : Nat) : Bool := 0xdc00 ≤ code && code < 0xe000

/-- Surrogate pairs are joined into the code points they stand for. -/
def joinSurrogates : List Nat → List Nat
  | [] => []
  | [a] => [a]
  | a :: b :: rest =>
    if isHighSurrogate a && isLowSurrogate b then
      (0x10000 + (a - 0xd800) * 0x400 + (b - 0xdc00)) :: joinSurrogates rest
    else a :: joinSurrogates (b :: rest)

/-- Four hexadecimal digits. -/
def hexText (code : Nat) : List Char :=
  [code / 4096 % 16, code / 256 % 16, code / 16 % 16, code % 16].map Nat.digitChar

/-- The value of a string from its code points.  Half a surrogate pair is no character: it is written
as a replacement character and its number, and a replacement character beside one likewise. -/
def stringValue (codes : List Nat) : String :=
  let joined := joinSurrogates codes
  let isHalf (code : Nat) : Bool := isHighSurrogate code || isLowSurrogate code
  let broken := joined.any isHalf
  String.ofList (joined.flatMap fun code =>
    if isHalf code || (broken && code == 0xfffd) then '\ufffd' :: hexText code else [Char.ofNat code])

/-- The code points of a string up to its closing quote. -/
def scanString (quote : Char) : Nat → List Char → Option (List Nat × List Char)
  | 0, _ => none
  | _ + 1, [] => none
  | fuel + 1, c :: cs =>
    if c == quote then some ([], cs)
    else if c == '\\' then do
      let (codes, rest) ← scanEscape cs
      let (more, rest) ← scanString quote fuel rest
      return (codes ++ more, rest)
    else if c == '\n' || c == '\r' then none
    else do
      let (more, rest) ← scanString quote fuel cs
      return (c.toNat :: more, rest)

/-! ## Templates and regular expressions -/

/-- A template, up to its end or to its next substitution; whether a substitution follows. -/
def scanTemplate : List Char → Option (Bool × List Char)
  | [] => none
  | '\\' :: _ :: cs => scanTemplate cs
  | '$' :: '\x7b' :: cs => some (true, cs)
  | c :: cs => if c == '\x60' then some (false, cs) else scanTemplate cs

/-- A regular expression up to its closing slash; inside a character class a slash stands for
itself. -/
def scanRegex (inClass : Bool) : List Char → Option (List Char)
  | [] => none
  | '\\' :: c :: cs => if isLineEnd c then none else scanRegex inClass cs
  | c :: cs =>
    if isLineEnd c then none
    else if c == '[' then scanRegex true cs
    else if c == ']' then scanRegex false cs
    else if c == '/' && !inClass then some cs
    else scanRegex inClass cs

/-! ## Names and numbers -/

/-- The rest of a name, and whether it was written with an escape. -/
def scanName : Nat → List Char → Option (List Char × Bool × List Char)
  | 0, cs => some ([], false, cs)
  | fuel + 1, '\\' :: 'u' :: cs => do
    let (code, rest) ← scanCodePoint cs
    let c := Char.ofNat code
    if isNamePart c then
      let (name, _, rest) ← scanName fuel rest
      return (c :: name, true, rest)
    else none
  | fuel + 1, c :: cs =>
    if isNamePart c then do
      let (name, escaped, rest) ← scanName fuel cs
      return (c :: name, escaped, rest)
    else some ([], false, c :: cs)
  | _ + 1, [] => some ([], false, [])

/-- Digits of a number, with separators. -/
def isDigitOf (base : Nat) (c : Char) : Bool :=
  c == '_' || (match hexDigit? c with | some d => d < base | none => false)

/-- The exponent of a number, if there is one. -/
def dropExponent (cs : List Char) : List Char :=
  match cs with
  | e :: rest =>
    if e == 'e' || e == 'E' then
      let rest := match rest with
        | s :: more => if s == '+' || s == '-' then more else rest
        | [] => rest
      rest.dropWhile (isDigitOf 10)
    else cs
  | [] => cs

/-- A decimal number after its integer part. -/
def dropFraction (cs : List Char) : List Char :=
  match cs with
  | '.' :: rest => dropExponent (rest.dropWhile (isDigitOf 10))
  | _ => dropExponent cs

/-- A number: what kind it is, and what follows. -/
def scanNumber (cs : List Char) : TokenKind × List Char :=
  let integer (rest : List Char) : TokenKind × List Char := match rest with
    | 'n' :: rest => (.bigint, rest)
    | rest => (.number, rest)
  match cs with
  | '0' :: x :: rest =>
    if x == 'x' || x == 'X' then integer (rest.dropWhile (isDigitOf 16))
    else if x == 'o' || x == 'O' then integer (rest.dropWhile (isDigitOf 8))
    else if x == 'b' || x == 'B' then integer (rest.dropWhile (isDigitOf 2))
    else match cs.dropWhile (isDigitOf 10) with
      | 'n' :: rest => (.bigint, rest)
      | rest => (.number, dropFraction rest)
  | _ => match cs.dropWhile (isDigitOf 10) with
    | 'n' :: rest => (.bigint, rest)
    | rest => (.number, dropFraction rest)

/-! ## Punctuation -/

/-- Punctuation of several characters, longest first. -/
def longPunctuation : List String :=
  ["===", "!==", "**=", "&&=", "||=", "??=", "...", "=>", "==", "!=", "<=", "&&", "||", "??", "?.",
    "++", "--", "+=", "-=", "*=", "/=", "%=", "&=", "|=", "^=", "**"]

/-- Punctuation of one character. -/
def shortPunctuation : List Char :=
  ['\x7b', '\x7d', '(', ')', '[', ']', '.', ';', ',', '<', '>', '+', '-', '*', '/', '%', '&', '|', '^',
    '!', '~', '?', ':', '=', '@']

/-- Whether `?.` would take the point of a number. -/
def isPointOfNumber (text : String) (rest : List Char) : Bool :=
  text == "?." && (match rest with | c :: _ => c.isDigit | [] => false)

/-- The punctuation that a text begins with. -/
def scanPunctuation (cs : List Char) : Option (String × List Char) :=
  match longPunctuation.find? fun p =>
      p.toList.isPrefixOf cs && !isPointOfNumber p (cs.drop p.length) with
  | some p => some (p, cs.drop p.length)
  | none => match cs with
    | c :: rest => if shortPunctuation.contains c then some (String.singleton c, rest) else none
    | [] => none

/-! ## White space and comments -/

/-- What the lexer skips: white space, the rest of a line, or up to the end of a comment. -/
inductive Skipping where
  | blanks
  | line
  | comment

/-- Skip white space and comments.  The answer says whether a line ended, and how many bytes were
skipped; a comment that is not closed is an error. -/
def skip : Skipping → (lineEnd : Bool) → (bytes : Nat) → List Char → Option (Bool × Nat × List Char)
  | .comment, _, _, [] => none
  | _, lineEnd, bytes, [] => some (lineEnd, bytes, [])
  | .blanks, lineEnd, bytes, '/' :: '/' :: cs => skip .line lineEnd (bytes + 2) cs
  | .blanks, lineEnd, bytes, '/' :: '*' :: cs => skip .comment lineEnd (bytes + 2) cs
  | .comment, lineEnd, bytes, '*' :: '/' :: cs => skip .blanks lineEnd (bytes + 2) cs
  | .blanks, lineEnd, bytes, c :: cs =>
    if isLineEnd c then skip .blanks true (bytes + c.utf8Size) cs
    else if isBlank c then skip .blanks lineEnd (bytes + c.utf8Size) cs
    else some (lineEnd, bytes, c :: cs)
  | .line, lineEnd, bytes, c :: cs =>
    if isLineEnd c then skip .blanks true (bytes + c.utf8Size) cs
    else skip .line lineEnd (bytes + c.utf8Size) cs
  | .comment, lineEnd, bytes, c :: cs => skip .comment (lineEnd || isLineEnd c) (bytes + c.utf8Size) cs

/-! ## Tokens -/

/-- Words after which an operand follows. -/
def operandWords : List String :=
  ["return", "typeof", "case", "do", "else", "in", "instanceof", "new", "void", "delete", "throw",
    "yield", "await", "of"]

/-- Whether a token ends an operand, so that a slash after it divides. -/
def endsOperand : TokenKind → Bool
  | .word name escaped => escaped || !operandWords.contains name
  | .punct text => text == ")" || text == "]" || text == "\x7d" || text == "++" || text == "--"
  | .templateHead | .templateMiddle => false
  | _ => true

/-- Where the lexer stands. -/
structure LexerState where
  rest : List Char
  offset : Nat
  /-- The kind of the token before. -/
  previous : Option TokenKind
  /-- For each substitution that is open, how many braces are open in it. -/
  braces : List Nat

/-- The next token of a text that does not begin with white space, the rest of the text, and the open
substitutions. -/
def scanToken (previous : Option TokenKind) (braces : List Nat) (cs : List Char) :
    Option (TokenKind × List Nat × List Char) :=
  match cs with
  | [] => none
  | c :: rest =>
    if isNameStart c || c == '\\' then do
      let (name, escaped, rest) ← scanName cs.length cs
      match name with
      | first :: _ =>
        if isNameStart first then return (.word (String.ofList name) escaped, braces, rest) else none
      | [] => none
    else if c == '#' then do
      let (name, _, rest) ← scanName rest.length rest
      match name with
      | first :: _ =>
        if isNameStart first then return (.hashName (String.ofList name), braces, rest) else none
      | [] => none
    else if c == '"' || c == '\x27' then do
      let (codes, rest) ← scanString c cs.length rest
      return (.string (stringValue codes), braces, rest)
    else if c == '\x60' then do
      let (substitution, rest) ← scanTemplate rest
      if substitution then return (.templateHead, 0 :: braces, rest) else return (.template, braces, rest)
    else if c.isDigit || (c == '.' && (rest.head?.map (·.isDigit)).getD false) then
      let (kind, rest) := scanNumber cs
      if (rest.head?.map isNamePart).getD false then none else some (kind, braces, rest)
    else if c == '/' && !((previous.map endsOperand).getD false) then do
      let rest ← scanRegex false rest
      return (.regex, braces, rest.dropWhile isNamePart)
    else if c == '\x7d' && braces.head? == some 0 then do
      let (substitution, rest) ← scanTemplate rest
      if substitution then return (.templateMiddle, braces, rest)
      else return (.templateTail, braces.tail, rest)
    else do
      let (text, rest) ← scanPunctuation cs
      let braces := match braces with
        | n :: outer =>
          if text == "\x7b" then (n + 1) :: outer else if text == "\x7d" then (n - 1) :: outer else braces
        | [] => []
      return (.punct text, braces, rest)

/-- The tokens from where the lexer stands.  Every token takes at least one character. -/
def tokensFrom : Nat → LexerState → Option (List Token)
  | 0, _ => none
  | fuel + 1, s => do
    let (lineEnd, skipped, rest) ← skip .blanks false 0 s.rest
    if rest.isEmpty then return []
    else
      let start := s.offset + skipped
      let (kind, braces, after) ← scanToken s.previous s.braces rest
      let stop := start + byteCount (rest.take (rest.length - after.length))
      let more ← tokensFrom fuel ⟨after, stop, some kind, braces⟩
      return ⟨kind, ⟨start, stop⟩, lineEnd⟩ :: more

/-- The first line of a text, when it names an interpreter. -/
def skipInterpreter (cs : List Char) : List Char :=
  match cs with
  | '#' :: '!' :: rest => rest.dropWhile fun c => !isLineEnd c
  | _ => cs

/-- All tokens of a text. -/
def tokenize (source : String) : Option (List Token) :=
  let cs := source.toList
  let rest := skipInterpreter cs
  tokensFrom (cs.length + 1)
    ⟨rest, byteCount (cs.take (cs.length - rest.length)), none, []⟩

end Interop.Source
