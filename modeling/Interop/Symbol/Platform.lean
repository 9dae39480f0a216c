import Interop.Symbol.Table

/-!
# Platform types

Types that every input may use without declaring them, and what each is in the target.
-/

namespace Interop

/-- The platform types and their names in the target. -/
def platformTypes : List (String × String) :=
  [("Promise", "Future"), ("PromiseLike", "Future"), ("Date", "DateTime"), ("RegExp", "RegExp"),
    ("Error", "Error"), ("Map", "Map"), ("ReadonlyMap", "Map"), ("Record", "Map"), ("Set", "Set"),
    ("ReadonlySet", "Set"), ("Iterable", "Iterable"), ("Iterator", "Iterator"),
    ("ArrayLike", "List"), ("Object", "Object"), ("Function", "Function"), ("String", "String"),
    ("Number", "num"), ("Boolean", "bool")]

/-- Generic names that mean arrays when nothing of that name is declared. -/
def arrayTypes : List String := ["Array", "ReadonlyArray"]

/-- The table that holds the platform types alone. -/
def SymbolTable.platform : SymbolTable :=
  platformTypes.foldl (fun t (name, target) => t.push (.external name target)) .empty

end Interop
