import Interop.Overload.Parameter

/-!
# Overloads

The target has no overloads, so members that would be declared under one name are merged into one.

* `OverloadKey.of?` — what a member is declared as; members with one key are overloads.
* `groupMembers` — the members in groups of one key, by the place of the first.
* `mergeGroup` — the one member that a group becomes.
-/

namespace Interop

/-- What a member is declared as. -/
inductive OverloadKey where
  | named (name : String) (isStatic : Bool)
  | call
  | construct
  | index
  deriving DecidableEq, Repr, Inhabited

/-- The key of a member.  Properties and nested declarations are never overloads. -/
def OverloadKey.of? (m : Member) : Option OverloadKey :=
  match m.kind with
  | .method .. => m.name.map fun name => .named name m.isStatic
  | .call _ => some .call
  | .construct _ => some .construct
  | .index _ => some .index
  | .property .. | .nested _ => none

/-! ## Groups -/

/-- Whether a member belongs to a group, which is known by its first member. -/
def joins (m : Member) : List Member → Bool
  | [] => false
  | first :: _ => (OverloadKey.of? m).isSome && OverloadKey.of? m == OverloadKey.of? first

/-- Put a member into its group, or into a new one at the end. -/
def addToGroups (m : Member) : List (List Member) → List (List Member)
  | [] => [[m]]
  | group :: groups =>
    if joins m group then (group ++ [m]) :: groups else group :: addToGroups m groups

/-- The members in groups of one key; a member without a key is a group of its own.  Groups stand in
the order of their first members. -/
def groupMembers (members : List Member) : List (List Member) :=
  members.foldl (fun groups m => addToGroups m groups) []

/-! ## Merging a group -/

/-- A group, ready to be declared. -/
inductive MemberGroup where
  /-- A member that stands for itself. -/
  | single (member : Member)
  /-- Several members, a line of source text for each, and the member that stands for them. -/
  | merged (key : OverloadKey) (overloads : List Member) (docs : List String) (member : Member)

namespace MemberGroup

/-- The member that is declared. -/
def effective : MemberGroup → Member
  | .single m => m
  | .merged _ _ _ m => m

/-- What is said above the declaration. -/
def docs : MemberGroup → List String
  | .single _ => []
  | .merged _ _ docs _ => docs

end MemberGroup

/-- The strings of a list, each where it first stands. -/
def distinct (xs : List String) : List String :=
  xs.foldl (fun seen x => if seen.contains x then seen else seen ++ [x]) []

/-- One signature that stands for a first one and others: the parameters position by position, all
result types, all type parameters. -/
def mergeSignatures (first : Signature) (others : List Signature) : Work Signature := do
  let slots ← Slots.ofParams first.params
  let results ← distinctTypes [first.result]
  let (slots, results) ← others.foldlM (fun (slots, results) sig => do
    let slots ← Slots.foldIn slots sig.params
    let results ← DistinctTypes.add render depthLimit results sig.result
    return (slots, results)) (slots, results)
  return ⟨first.typeParams ++ (distinct (others.flatMap (·.typeParams))).filter
      (fun name => !first.typeParams.contains name),
    slots.map Slot.toParam, results.representative?.getD .void⟩

/-- Whether a member is an optional method. -/
def isOptionalMethod (m : Member) : Bool :=
  match m.kind with
  | .method _ optional => optional
  | _ => false

/-- A kind of member with another signature, where members of the kind have one. -/
def MemberKind.withSignature? (kind : MemberKind) (sig : Signature) (optional : Bool) :
    Option MemberKind :=
  match kind with
  | .method .. => some (.method sig optional)
  | .call _ => some (.call sig)
  | .construct _ => some (.construct sig)
  | .index _ => some (.index sig)
  | .property .. | .nested _ => none

/-- The one member that a group becomes.  What is reported on the way points to the first member. -/
def mergeGroup : List Member → Work MemberGroup
  | [] => do throw (.structural (← get).position .emptyGroup)
  | first :: rest => do
    match OverloadKey.of? first, rest, (first :: rest).filterMap (·.signature?) with
    | some key, _ :: _, sig :: sigs =>
      modify (·.pointAt first.span)
      let merged ← mergeSignatures sig sigs
      match first.kind.withSignature? merged ((first :: rest).all isOptionalMethod) with
      | none => throw (.structural first.span .notCallable)
      | some kind =>
        let table ← Work.table
        return .merged key (first :: rest) ((first :: rest).map (·.text table)) { first with kind }
    | _, _, _ => return .single first

/-- The members of a declaration, grouped and merged. -/
def mergeMembers (members : List Member) : Work (List MemberGroup) :=
  (groupMembers members).mapM mergeGroup

end Interop
