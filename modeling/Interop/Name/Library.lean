import Interop.Name.Path

/-!
# Libraries and the flat names in them

Nested declarations become top-level declarations of a library, so each needs a flat name that no
other declaration of the library has.

* `Library.firstFree` — the name a path gets: the shortest suffix of the path whose spelling is
  free, and a numbered leaf when none is.
* `Registry.allocate` — look the path up, or record its first free name.  A record never changes.
-/

namespace Interop

/-- Names of the target's core library, which generated declarations must not hide. -/
def coreNames : List String :=
  ["bool", "DateTime", "double", "dynamic", "Error", "Function", "Future", "int", "Iterable",
    "Iterator", "List", "Map", "Null", "num", "Object", "RegExp", "Set", "String", "Symbol",
    "Type"]

/-- An output library and the names in use in it. -/
structure Library where
  id : Nat
  name : String
  used : List String := []
  deriving DecidableEq, Repr, Inhabited

namespace Library

/-- A library in which the core names are in use from the start. -/
def withCoreNames (id : Nat) (name : String) : Library :=
  ⟨id, name, coreNames⟩

/-- Whether a name is in use. -/
def contains (library : Library) (name : String) : Bool :=
  library.used.contains name

/-- How many names are in use. -/
def size (library : Library) : Nat :=
  library.used.length

/-- Mark a name as used. -/
def insert (library : Library) (name : String) : Library :=
  if library.contains name then library else { library with used := library.used ++ [name] }

/-! ## Choosing a name -/

/-- The suffixes of a list, shortest first, without the empty one. -/
def suffixes (segments : List String) : List (List String) :=
  (List.range segments.length).map fun k => segments.drop (segments.length - (k + 1))

/-- The spellings a path may take, best first: its suffixes joined by `_`, without those that have
no spelling. -/
def candidates (path : DeclPath) : List String :=
  (suffixes path.segments).filterMap fun s => Identifier.escape ("_".intercalate s) path.role

/-- The name that numbered names are built from. -/
def fallback (path : DeclPath) : String :=
  (Identifier.escape path.leaf path.role).getD (Identifier.sanitize path.leaf)

/-- The first of `base2`, `base3`, … that is not in use.  Among one more number than there are used
names some number is free, so the search is given that many. -/
def numbered (library : Library) (base : String) : Nat → Nat → String
  | 0, _ => base
  | fuel + 1, n =>
    let candidate := base ++ toString n
    if library.contains candidate then numbered library base fuel (n + 1) else candidate

/-- The name a path gets when it is the next one to be named. -/
def firstFree (library : Library) (path : DeclPath) : String :=
  match (candidates path).find? fun c => !library.contains c with
  | some name => name
  | none =>
    let base := fallback path
    if library.contains base then library.numbered base (library.size + 1) 2 else base

end Library

/-! ## The registry -/

/-- The name a path was given, and the library it was given in. -/
structure NameRecord where
  name : String
  library : Nat
  deriving DecidableEq, Repr, Inhabited

/-- All names given so far, by path. -/
structure Registry where
  records : List (DeclPath × NameRecord) := []
  deriving DecidableEq, Repr, Inhabited

namespace Registry

/-- The record of a path. -/
def find? (registry : Registry) (path : DeclPath) : Option NameRecord :=
  registry.records.lookup path

/-- How many paths have a name. -/
def size (registry : Registry) : Nat :=
  registry.records.length

/-- The name of a path in a library, chosen now unless the path has one already. -/
def allocate (registry : Registry) (path : DeclPath) (library : Library) :
    String × Registry × Library :=
  match registry.find? path with
  | some record => (record.name, registry, library)
  | none =>
    let name := library.firstFree path
    (name, ⟨registry.records ++ [(path, ⟨name, library.id⟩)]⟩, library.insert name)

end Registry

end Interop
