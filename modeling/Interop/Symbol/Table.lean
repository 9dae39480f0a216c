import Interop.Symbol.Basic

/-!
# The symbol table

Symbols are numbered in the order in which they are registered, which is also the order of the
output.

* `SymbolTable.lookup` — find a symbol by its scoped name: in the asking file first, then in any
  other input, then on the platform.
-/

namespace Interop

/-- All symbols of a run. -/
structure SymbolTable where
  symbols : Array Symbol := #[]
  deriving Inhabited

namespace SymbolTable

/-- The table without symbols. -/
def empty : SymbolTable := ⟨#[]⟩

/-- How many symbols there are; also the number the next one gets. -/
def size (t : SymbolTable) : Nat :=
  t.symbols.size

/-- The symbol with a number. -/
def get? (t : SymbolTable) (id : Nat) : Option Symbol :=
  t.symbols[id]?

/-- The table with one more symbol. -/
def push (t : SymbolTable) (s : Symbol) : SymbolTable :=
  ⟨t.symbols.push s⟩

/-- Change the symbol with a number, if there is one. -/
def modify (t : SymbolTable) (id : Nat) (f : Symbol → Symbol) : SymbolTable :=
  ⟨t.symbols.modify id f⟩

/-- The symbols with their numbers, in order. -/
def toList (t : SymbolTable) : List (Nat × Symbol) :=
  t.symbols.toList.zipIdx.map fun (s, id) => (id, s)

/-- The symbols declared directly in a namespace, or at the top of a file. -/
def children (t : SymbolTable) (file : Nat) (parent : Option Nat) : List Nat :=
  (t.toList.filter fun (_, s) => s.file == file && s.parent == parent).map (·.1)

/-- The symbols with a scoped name and an accepted kind, in order. -/
def matching (t : SymbolTable) (name : List String) (accept : SymbolKind → Bool) :
    List (Nat × Symbol) :=
  t.toList.filter fun (_, s) => s.scopedName == name && accept s.kind

/-- Find a symbol by its scoped name.  A symbol of the asking file comes before those of other
inputs, and these before platform types. -/
def lookup (t : SymbolTable) (name : List String) (file : Nat) (accept : SymbolKind → Bool) :
    Option Nat :=
  let found := t.matching name accept
  let first := (found.find? fun (_, s) => s.file == file)
    <|> (found.find? fun (_, s) => !s.isAmbient) <|> found.head?
  first.map (·.1)

/-- The name of a symbol below its module, with dots. -/
def qualifiedName (t : SymbolTable) (id : Nat) : String :=
  match t.get? id with
  | some s => s.qualifiedName
  | none => "<symbol " ++ toString id ++ ">"

/-- The declared name of a symbol. -/
def displayName (t : SymbolTable) (id : Nat) : String :=
  match t.get? id with
  | some s => s.name
  | none => "<symbol " ++ toString id ++ ">"

end SymbolTable

end Interop
