import Interop.Rendering.Basic

/-!
# Distinct types

Several types are reduced to those that differ in the target.  Unions and intersections count as
their members, and aliases without parameters as what they stand for, so `type AB = A | B` together
with `C` gives `A`, `B` and `C`.

* `followAliases` — look through aliases; it stops where an alias is being expanded already and
  where a chain of aliases closes.
* `components` — the types that a type counts as.
* `DistinctTypes.add` — keep a type unless one with its key is there.
-/

namespace Interop

/-! ## Looking through aliases -/

/-- The alias that a type without arguments refers to, if it may be looked through: it takes no
parameters, stands for something and is not being expanded. -/
def aliasBody? (table : SymbolTable) (expanding : List Nat) : Ty → Option (Nat × Ty)
  | .alias id | .nominal id [] =>
    match table.get? id with
    | some symbol =>
      if symbol.kind == .alias && symbol.typeParams.isEmpty && !expanding.contains id then
        symbol.aliased.map (id, ·)
      else none
    | none => none
  | _ => none

/-- Look through at most as many aliases as there are symbols not seen on the way. -/
def followFrom (table : SymbolTable) (expanding : List Nat) :
    (steps : Nat) → (seen : List Nat) → Ty → Ty
  | 0, _, ty => ty
  | steps + 1, seen, ty =>
    match aliasBody? table expanding ty with
    | some (id, body) =>
      if seen.contains id then ty else followFrom table expanding steps (id :: seen) body
    | none => ty

/-- Look through aliases without parameters.  A chain passes every symbol at most once, so it ends
within as many steps as there are symbols. -/
def followAliases (table : SymbolTable) (expanding : List Nat) (ty : Ty) : Ty :=
  followFrom table expanding (table.size + 1) [] ty

/-! ## Components -/

/-- The types that a type counts as, in order; `none` when the steps do not suffice, as for an
alias that has itself as a member. -/
def components (table : SymbolTable) (expanding : List Nat) : (steps : Nat) → Ty → Option (List Ty)
  | 0, _ => none
  | steps + 1, ty =>
    match followAliases table expanding ty with
    | .union members | .intersection members =>
      (members.mapM (components table expanding steps)).map List.flatten
    | followed => some [followed]

/-! ## Sets of types -/

/-- Types with their keys, all different, in the order they were first seen. -/
structure DistinctTypes where
  entries : List (String × Ty) := []

namespace DistinctTypes

instance : Inhabited DistinctTypes := ⟨{}⟩

/-- The keys, in order. -/
def keys (d : DistinctTypes) : List String :=
  d.entries.map (·.1)

/-- The types, in order. -/
def types (d : DistinctTypes) : List Ty :=
  d.entries.map (·.2)

/-- Whether there is no type. -/
def isEmpty (d : DistinctTypes) : Bool :=
  d.entries.isEmpty

/-- Keep a type, unless one with its key is there. -/
def insert (d : DistinctTypes) (key : String) (ty : Ty) : DistinctTypes :=
  if d.keys.contains key then d else ⟨d.entries ++ [(key, ty)]⟩

/-- The one type that stands for all of them, if there is any. -/
def representative? (d : DistinctTypes) : Option Ty :=
  Ty.ofUnion d.types

/-- Keep the components of a type.  A union of any nesting is taken apart within the given number of
steps; each component is compared by its key. -/
def add (render : Renderer) (steps : Nat) (d : DistinctTypes) (ty : Ty) : Work DistinctTypes := do
  let s ← get
  match components s.table s.expanding steps ty with
  | none => throw .exhausted
  | some parts => parts.foldlM (fun d part => do return d.insert (← render.key part) part) d

/-- The distinct components of several types. -/
def ofTypes (render : Renderer) (steps : Nat) (tys : List Ty) : Work DistinctTypes :=
  tys.foldlM (add render steps) {}

/-- The one type that stands for several; `any` for none. -/
def representative (render : Renderer) (steps : Nat) (tys : List Ty) : Work Ty := do
  return (← ofTypes render steps tys).representative?.getD .any

end DistinctTypes

end Interop
