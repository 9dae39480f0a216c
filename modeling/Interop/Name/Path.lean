import Interop.Name.Identifier

/-!
# Declaration paths

A path says where a declaration stands: its module, the namespaces around it, and its own name last.
-/

namespace Interop

/-- The place of a declaration among all declarations of a run. -/
structure DeclPath where
  segments : List String
  role : NameRole
  deriving DecidableEq, Repr, Inhabited

namespace DeclPath

/-- The path of a declaration directly inside this one. -/
def child (path : DeclPath) (name : String) (role : NameRole) : DeclPath :=
  ⟨path.segments ++ [name], role⟩

/-- The declaration's own name; empty for the empty path. -/
def leaf (path : DeclPath) : String :=
  path.segments.getLast?.getD ""

/-- The path as it is written in messages. -/
def dotted (path : DeclPath) : String :=
  ".".intercalate path.segments

end DeclPath

end Interop
