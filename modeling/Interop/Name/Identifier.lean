/-!
# Identifiers of the target

A name may be used as it stands, may be used once a `$` is put in front of it, or cannot be spelled
at all.

* `Identifier.validate` — which of the three holds of a name, in the role of a type or a value.
* `Identifier.escape` — the spelling to use, if there is one.
* `Identifier.sanitize` — a spelling for names that must exist whatever their source name is.
-/

namespace Interop

/-- What a name stands for.  Types and values share one name space; the role only decides which
words are taken. -/
inductive NameRole where
  | type
  | value
  deriving DecidableEq, Repr, Inhabited

namespace Identifier

/-- The character that turns a taken word into a free one. -/
def escapeMark : Char := '$'

/-- Words that are never identifiers. -/
def reservedWords : List String :=
  ["assert", "break", "case", "catch", "class", "const", "continue", "default", "do", "else",
    "enum", "extends", "false", "final", "finally", "for", "if", "in", "is", "new", "null",
    "rethrow", "return", "super", "switch", "this", "throw", "true", "try", "var", "void",
    "while", "with"]

/-- Words that may name members and variables but no type. -/
def builtInWords : List String :=
  ["abstract", "as", "covariant", "deferred", "dynamic", "export", "extension", "external",
    "factory", "Function", "get", "implements", "import", "interface", "late", "library", "mixin",
    "operator", "part", "required", "set", "static", "typedef"]

/-- Characters that may stand in an identifier: ASCII letters and digits, `_` and `$`. -/
def isPart (c : Char) : Bool :=
  c.isAlphanum || c == '_' || c == '$'

/-- Whether a name begins with an ASCII digit. -/
def startsWithDigit : List Char → Bool
  | [] => false
  | c :: _ => c.isDigit

/-- Whether a word is taken in a role. -/
def isTaken (name : String) (role : NameRole) : Bool :=
  reservedWords.contains name || (role == .type && builtInWords.contains name)

/-- How a name can be spelled. -/
inductive Validity where
  /-- As it stands. -/
  | usable
  /-- Only in this escaped form. -/
  | escaped (spelling : String)
  /-- Not at all. -/
  | unusable
  deriving DecidableEq, Repr, Inhabited

/-- A name with the escape mark in front. -/
def escaped (name : String) : String :=
  String.ofList (escapeMark :: name.toList)

/-- Decide how a name can be spelled in a role. -/
def validate (name : String) (role : NameRole) : Validity :=
  if name.toList.isEmpty || !name.toList.all isPart then .unusable
  else if startsWithDigit name.toList || isTaken name role then .escaped (escaped name)
  else .usable

/-- The spelling a validity allows for a name. -/
def Validity.spelling? (name : String) : Validity → Option String
  | .usable => some name
  | .escaped spelling => some spelling
  | .unusable => none

/-- The spelling of a name, if it has one. -/
def escape (name : String) (role : NameRole) : Option String :=
  (validate name role).spelling? name

/-- Whether a name has the form of an identifier, taken or not. -/
def isIdentifier (name : String) : Bool :=
  !name.toList.isEmpty && name.toList.all isPart && !startsWithDigit name.toList

/-- Replace every character that no identifier holds by `_`, and put the escape mark in front of
what is empty or begins with a digit. -/
def sanitize (name : String) : String :=
  let cs := name.toList.map fun c => if isPart c then c else '_'
  String.ofList (if cs.isEmpty || startsWithDigit cs then escapeMark :: cs else cs)

end Identifier

end Interop
