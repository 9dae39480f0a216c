import Interop.Rendering.Resolve

/-!
# Merging parameter lists

Overloads become one signature that accepts every call some overload accepts.  A position of it
collects the names and types that stand there, and must be filled only if every overload has a
required parameter there.

* `Slot` — one position; `Slots.ofParams` and `Slots.foldIn` — the positions of one list, and of one
  more.
* `Slot.name`, `Slot.toParam` — the parameter that a position becomes.
-/

namespace Interop

/-- One parameter position of several signatures. -/
structure Slot where
  /-- The names that stand here, all different, in the order they were first seen. -/
  names : List String
  /-- The types of an argument here. -/
  types : DistinctTypes
  optional : Bool
  /-- Whether every signature has a rest parameter here. -/
  rest : Bool

namespace Slot

instance : Inhabited Slot := ⟨⟨[], {}, false, false⟩⟩

/-- The position of a parameter that no other signature has met yet.  A rest parameter also takes no
argument at all, so it is optional. -/
def ofParam (optional : Bool) (p : Param) : Work Slot := do
  let types ← distinctTypes [p.argumentType]
  return ⟨[p.name], types, optional || p.optional || p.rest, p.rest⟩

/-- The position, once a parameter of another signature stands there too. -/
def add (slot : Slot) (p : Param) : Work Slot := do
  let types ← slot.types.add render depthLimit p.argumentType
  let names := if slot.names.contains p.name then slot.names else slot.names ++ [p.name]
  return ⟨names, types, slot.optional || p.optional || p.rest, slot.rest && p.rest⟩

/-- The position, once a signature without a parameter there has been met. -/
def skip (slot : Slot) : Slot :=
  { slot with optional := true, rest := false }

/-- The name of the merged parameter: all names joined by `_`, made legal. -/
def name (slot : Slot) : String :=
  let joined := "_".intercalate slot.names
  (Identifier.escape joined .value).getD (Identifier.sanitize joined)

/-- The merged parameter.  A rest position gets its array type back. -/
def toParam (slot : Slot) : Param :=
  let type := slot.types.representative?.getD .any
  ⟨slot.name, if slot.rest then .array type else type, slot.optional && !slot.rest, slot.rest⟩

end Slot

namespace Slots

/-- The positions of one parameter list. -/
def ofParams (params : List Param) : Work (List Slot) :=
  params.mapM (Slot.ofParam false)

/-- The positions, once one more parameter list has been met.  Where only one of the two lists has a
parameter, the position is optional. -/
def foldIn : List Slot → List Param → Work (List Slot)
  | slots, [] => return slots.map Slot.skip
  | [], p :: ps => do
    let slot ← Slot.ofParam true p
    return { slot with rest := false } :: (← foldIn [] ps)
  | slot :: slots, p :: ps => do
    let slot ← slot.add p
    return slot :: (← foldIn slots ps)

end Slots

end Interop
