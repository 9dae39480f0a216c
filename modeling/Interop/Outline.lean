/-!
# Output declarations

An output library is built as an outline: declarations with their documentation and metadata, each
under the one it belongs to.

* `Outline.add`, `Outline.addAt` — a declaration as the last child of another, or at a place among
  its children.
* `Outline.render` — the text of a declaration and all below it.
-/

namespace Interop

/-- What an output declaration is. -/
inductive DeclKind where
  /-- A library, with the library directive as its header. -/
  | library
  | importDirective
  /-- A class, whose children stand in its body. -/
  | klass
  /-- A member of a class. -/
  | member
  /-- A function, getter or setter at the top of a library. -/
  | function
  /-- A declaration that cannot be written in the target and stands there as a comment. -/
  | stub
  deriving DecidableEq, Repr, Inhabited

/-- An output declaration. -/
structure OutputDecl where
  kind : DeclKind
  /-- The declaration, up to its body. -/
  header : String
  /-- The lines above the header. -/
  metadata : List String := []
  /-- The lines of documentation. -/
  docs : List String := []
  parent : Option Nat := none
  children : List Nat := []
  deriving DecidableEq, Repr, Inhabited

/-- Output declarations, numbered in the order they were added. -/
structure Outline where
  decls : Array OutputDecl := #[]
  deriving Repr, Inhabited

namespace Outline

/-- How many declarations there are; also the number the next one gets. -/
def size (o : Outline) : Nat :=
  o.decls.size

/-- The declaration with a number. -/
def get? (o : Outline) (id : Nat) : Option OutputDecl :=
  o.decls[id]?

/-- The numbers of a declaration's children, in order. -/
def children (o : Outline) (id : Nat) : List Nat :=
  match o.get? id with
  | some decl => decl.children
  | none => []

/-- The declarations that are no one's children, in the order they were added. -/
def roots (o : Outline) : List Nat :=
  (o.decls.toList.zipIdx.filter fun (decl, _) => decl.parent.isNone).map (·.2)

/-- Change the header of a declaration. -/
def setHeader (o : Outline) (id : Nat) (header : String) : Outline :=
  ⟨o.decls.modify id fun decl => { decl with header }⟩

/-! ## Adding declarations -/

/-- Put a number at a place of a list, or at its end when it is shorter. -/
def insertAt (index : Nat) (id : Nat) (ids : List Nat) : List Nat :=
  ids.take index ++ id :: ids.drop index

/-- Add a declaration whose parent links it in among its children as `link` says. -/
def addWith (o : Outline) (decl : OutputDecl) (parent : Option Nat)
    (link : Nat → List Nat → List Nat) : Outline :=
  let id := o.size
  let decls := o.decls.push { decl with parent }
  match parent with
  | none => ⟨decls⟩
  | some p => ⟨decls.modify p fun above => { above with children := link id above.children }⟩

/-- Add a declaration as the last child of its parent, or as a root. -/
def add (o : Outline) (decl : OutputDecl) (parent : Option Nat) : Outline :=
  o.addWith decl parent fun id ids => ids ++ [id]

/-- Add a declaration at a place among the children of its parent. -/
def addAt (o : Outline) (decl : OutputDecl) (parent index : Nat) : Outline :=
  o.addWith decl (some parent) (insertAt index)

/-! ## Text -/

/-- Every line after a given start, each with its end of line. -/
def lines (start : String) (texts : List String) : String :=
  String.join (texts.map fun text => start ++ text ++ "\n")

/-- The white space before the lines at a depth. -/
def indentation (depth : Nat) : String :=
  String.join (List.replicate depth "  ")

/-- What stands between a declaration of a library and the one before it: nothing between two
imports, which form one block, and a blank line otherwise. -/
def separator (previous kind : Option DeclKind) : String :=
  if previous == some .importDirective && kind == some .importDirective then "" else "\n"

/-- The declarations of a library, from the kind of each and its text. -/
def separated : Option DeclKind → List (Option DeclKind × String) → String
  | _, [] => ""
  | previous, (kind, text) :: rest => separator previous kind ++ text ++ separated kind rest

/-- The text of a declaration at a depth.  The number of levels bounds how deep declarations may
stand inside one another; below it nothing is written. -/
def renderFrom (o : Outline) : (levels : Nat) → (depth : Nat) → (id : Nat) → String
  | 0, _, _ => ""
  | levels + 1, depth, id =>
    match o.get? id with
    | none => ""
    | some decl =>
      let pad := indentation depth
      let docs := lines (pad ++ "/// ") decl.docs
      match decl.kind with
      | .stub => docs ++ lines (pad ++ "// ") (decl.metadata ++ [decl.header])
      | .library =>
        docs ++ lines pad (decl.metadata ++ [decl.header]) ++
          separated none (decl.children.map fun child =>
            ((o.get? child).map (·.kind), o.renderFrom levels depth child))
      | .klass =>
        docs ++ lines pad (decl.metadata ++ [decl.header ++ " \x7b"]) ++
          String.join (decl.children.map (o.renderFrom levels (depth + 1))) ++ pad ++ "\x7d\n"
      | .importDirective | .member | .function =>
        docs ++ lines pad (decl.metadata ++ [decl.header]) ++
          String.join (decl.children.map (o.renderFrom levels (depth + 1)))

/-- The text of a declaration and all below it.  A child is added after its parent, so no chain is
longer than the outline. -/
def render (o : Outline) (id : Nat) : String :=
  o.renderFrom (o.size + 1) 0 id

end Outline

end Interop
