import Interop.Proofs.Collection.Steadiness
import Interop.Proofs.Preparation
import Mathlib

/-!
# Accessors of one name

The accessors of a name in a body make one property.  It stands where the first of them stands and
has the type that this one declares, and the other members are those of a body without these
accessors.  A second accessor makes the property writable, whether it is the other half of a pair or
not.

* `Accessor`, `Body` — the accessors in the bodies of object types, interfaces and classes.
* `Body.Joins` — what the accessors of a name become.
* **`accessors_join`** — what they become in every body.
-/

namespace Interop

open Source

/-! ## Bodies -/

/-- An accessor that is not left out. -/
structure Accessor where
  name : String
  isStatic : Bool
  isSetter : Bool
  signature : SignatureNode
  span : Span

namespace Accessor

/-- Whether an accessor has a name, on the object or on the class. -/
def isOf (a : Accessor) (name : String) (isStatic : Bool) : Bool :=
  a.name == name && a.isStatic == isStatic

/-- What a getter gives, or a setter takes. -/
def type (a : Accessor) (scope : LoweringScope) : Ty :=
  (a.signature.lowerAccessor a.isSetter).value scope

/-- The property that an accessor makes when it is the first of its name. -/
def property (a : Accessor) (scope : LoweringScope) : Member :=
  ⟨some a.name, .property (a.type scope) false (!a.isSetter), a.isStatic, a.span⟩

/-- Add what an accessor stands for. -/
def addTo (a : Accessor) (scope : LoweringScope) (members : List Member) : List Member :=
  addAccessor a.name (a.type scope) a.isSetter a.isStatic a.span members

lemma isOf_iff {a : Accessor} {name : String} {isStatic : Bool} :
    a.isOf name isStatic = true ↔ a.name = name ∧ a.isStatic = isStatic := by
  simp [isOf]

end Accessor

namespace Source

/-- The accessor that an element of an object type or interface is. -/
def MemberNode.accessor? : MemberNode → Option Accessor
  | .method span key kind _ signature =>
    match key.name?, kind with
    | some name, .getter => some ⟨name, false, false, signature, span⟩
    | some name, .setter => some ⟨name, false, true, signature, span⟩
    | _, _ => none
  | _ => none

/-- The name of the plain property that an element of an object type or interface is. -/
def MemberNode.property? : MemberNode → Option (String × Bool)
  | .property _ key _ _ _ => key.name?.map (·, false)
  | _ => none

/-- The accessor that an element of a class is. -/
def ClassElement.accessor? : ClassElement → Option Accessor
  | .method span key kind isStatic _ isPrivate f =>
    match isPrivate, key.name?, kind with
    | false, some name, .method .getter => some ⟨name, isStatic, false, f.signature, span⟩
    | false, some name, .method .setter => some ⟨name, isStatic, true, f.signature, span⟩
    | _, _, _ => none
  | .index m => m.accessor?
  | _ => none

/-- The name of the plain property that an element of a class is. -/
def ClassElement.property? : ClassElement → Option (String × Bool)
  | .property _ key isStatic _ _ isPrivate _ _ =>
    match isPrivate, key.name? with
    | false, some name => some (name, isStatic)
    | _, _ => none
  | .index m => m.property?
  | _ => none

end Source

/-- A kind of bodies, by what becomes of their elements. -/
structure Body (α : Type) where
  lower : List α → Lower (List Member)
  accessor? : α → Option Accessor
  property? : α → Option (String × Bool)

namespace Body

/-- The bodies of object types and interfaces. -/
def ofObject : Body MemberNode :=
  ⟨MemberNode.lowerAllOnto [], MemberNode.accessor?, MemberNode.property?⟩

/-- The bodies of a class, whose objects have a type. -/
def ofClass (self : Ty) : Body ClassElement :=
  ⟨lowerElements self, ClassElement.accessor?, ClassElement.property?⟩

variable {α : Type} (b : Body α)

/-- Whether an element is an accessor of a name. -/
def isAccessorOf (name : String) (isStatic : Bool) (x : α) : Bool :=
  (b.accessor? x).any (·.isOf name isStatic)

/-- **What the accessors of a name become.**  The members are, whatever was noted before, those that
there would be without these accessors, and one property more.  It is the only one of its name,
stands where the first accessor has put it, after the members of the elements before, and has the
type that the first accessor declares.  It can only be read if there is no other accessor of the
name, and that one is a getter. -/
def Joins (scope : LoweringScope) (name : String) (isStatic : Bool) (xs : List α) : Prop :=
  ∃ (before after : List α) (x : α) (first : Accessor) (front back : List Member) (readonly : Bool),
    xs = before ++ x :: after ∧ b.accessor? x = some first ∧ first.isOf name isStatic = true ∧
    (∀ y ∈ before, b.isAccessorOf name isStatic y = false) ∧
    (first.signature.lowerAccessor first.isSetter).Yields scope (· = first.type scope) ∧
    (b.lower xs).Yields scope (· = front ++
      ⟨some name, .property (first.type scope) false readonly, isStatic, first.span⟩ :: back) ∧
    (b.lower (xs.filter fun y => !b.isAccessorOf name isStatic y)).Yields scope
      (· = front ++ back) ∧
    (b.lower before).Yields scope (·.length = front.length) ∧
    (∀ m ∈ front ++ back, isPropertyOf name isStatic m = false) ∧
    (readonly = true ↔ xs.filter (b.isAccessorOf name isStatic) = [x] ∧ first.isSetter = false)

end Body

/-! ## One element after another -/

section

variable {test : Member → Bool} {change : Member → Member} {front back : List Member}

lemma modifyFirst_append (test : Member → Bool) (change : Member → Member)
    (front back : List Member) : modifyFirst test change (front ++ back) =
      if front.any test then modifyFirst test change front ++ back
      else front ++ modifyFirst test change back := by
  induction front with
  | nil => rfl
  | cons m front ih =>
      simp only [List.cons_append, modifyFirst, List.any_cons]
      by_cases htest : test m = true
      · simp [htest]
      · simp only [htest, Bool.false_eq_true, if_false, Bool.false_or, ih]
        split_ifs <;> rfl

lemma length_modifyFirst (test : Member → Bool) (change : Member → Member) (members : List Member) :
    (modifyFirst test change members).length = members.length := by
  induction members with
  | nil => rfl
  | cons m members ih =>
      simp only [modifyFirst]
      split_ifs
      · rfl
      · rw [List.length_cons, List.length_cons, ih]

lemma forall_modifyFirst {P : Member → Prop} (hchange : ∀ m, P m → P (change m)) :
    ∀ {members : List Member}, (∀ m ∈ members, P m) →
      ∀ m ∈ modifyFirst test change members, P m
  | [], _ => by simp [modifyFirst]
  | first :: rest, h => by
      obtain ⟨hfirst, hrest⟩ := List.forall_mem_cons.mp h
      simp only [modifyFirst]
      split_ifs
      · exact List.forall_mem_cons.mpr ⟨hchange first hfirst, hrest⟩
      · exact List.forall_mem_cons.mpr ⟨hfirst, forall_modifyFirst hchange hrest⟩

end

/-- A member is the property of one name only. -/
lemma isPropertyOf_unique {name name' : String} {isStatic isStatic' : Bool} {m : Member}
    (h : isPropertyOf name isStatic m = true) :
    isPropertyOf name' isStatic' m = true ↔ name' = name ∧ isStatic' = isStatic := by
  simp only [isPropertyOf, Bool.and_eq_true, beq_iff_eq] at h ⊢
  obtain ⟨⟨hstatic, hname⟩, hproperty⟩ := h
  rw [hstatic, hname, Option.some.injEq]
  exact ⟨fun h => ⟨h.1.2.symm, h.1.1.symm⟩, fun h => ⟨⟨h.2.symm, h.1.symm⟩, hproperty⟩⟩

/-- **How members change around a property** of a name: what comes before it and after it changes as
if it were not there. -/
structure Around (name : String) (isStatic : Bool) (f : List Member → List Member) : Prop where
  split : ∀ front back, ∃ front' back', front'.length = front.length ∧ f (front ++ back) =
    front' ++ back' ∧ ∀ m, isPropertyOf name isStatic m = true →
      f (front ++ m :: back) = front' ++ m :: back'
  none : ∀ members, (∀ m ∈ members, isPropertyOf name isStatic m = false) →
    ∀ m ∈ f members, isPropertyOf name isStatic m = false

/-- Members that are added last. -/
lemma Around.append {name : String} {isStatic : Bool} {more : List Member}
    (h : ∀ m ∈ more, isPropertyOf name isStatic m = false) :
    Around name isStatic (· ++ more) where
  split front back := ⟨front, back ++ more, rfl, List.append_assoc .., fun m _ => by simp⟩
  none _ hmembers := List.forall_mem_append.mpr ⟨hmembers, h⟩

namespace Accessor

variable {a : Accessor} {scope : LoweringScope} {name : String} {isStatic : Bool}
  {members front back : List Member}

/-- An accessor joins the property of its name. -/
lemma addTo_of_any (h : members.any (isPropertyOf a.name a.isStatic) = true) :
    a.addTo scope members = modifyFirst (isPropertyOf a.name a.isStatic) writable members :=
  if_pos h

/-- An accessor makes a property if its name has none. -/
lemma addTo_of_not_any (h : ¬members.any (isPropertyOf a.name a.isStatic) = true) :
    a.addTo scope members = members ++ [a.property scope] :=
  if_neg h

lemma isPropertyOf_property (a : Accessor) (scope : LoweringScope) (name : String)
    (isStatic : Bool) : isPropertyOf name isStatic (a.property scope) = a.isOf name isStatic := by
  show (_ && _ && true) = _
  rw [Bool.and_true, Bool.and_comm]
  rfl

/-- An accessor of another name. -/
lemma around (h : a.isOf name isStatic = false) (scope : LoweringScope) :
    Around name isStatic (a.addTo scope) where
  split front back := by
    have hskip : ∀ m, isPropertyOf name isStatic m = true →
        isPropertyOf a.name a.isStatic m = false := fun m hm =>
      Bool.eq_false_iff.mpr fun hother =>
        Bool.eq_false_iff.mp h (isOf_iff.mpr ((isPropertyOf_unique hm).mp hother))
    have hsame : ∀ m, isPropertyOf name isStatic m = true →
        (front ++ m :: back).any (isPropertyOf a.name a.isStatic) =
          (front ++ back).any (isPropertyOf a.name a.isStatic) := fun m hm => by
      simp [hskip m hm]
    by_cases hany : (front ++ back).any (isPropertyOf a.name a.isStatic) = true
    · by_cases hfront : front.any (isPropertyOf a.name a.isStatic) = true
      · refine ⟨modifyFirst (isPropertyOf a.name a.isStatic) writable front, back,
          length_modifyFirst .., ?_, fun m hm => ?_⟩
        · rw [addTo_of_any hany, modifyFirst_append, if_pos hfront]
        · rw [addTo_of_any ((hsame m hm).trans hany), modifyFirst_append, if_pos hfront]
      · refine ⟨front, modifyFirst (isPropertyOf a.name a.isStatic) writable back, rfl, ?_,
          fun m hm => ?_⟩
        · rw [addTo_of_any hany, modifyFirst_append, if_neg hfront]
        · rw [addTo_of_any ((hsame m hm).trans hany), modifyFirst_append, if_neg hfront,
            modifyFirst, hskip m hm]
          rfl
    · refine ⟨front, back ++ [a.property scope], rfl, ?_, fun m hm => ?_⟩
      · rw [addTo_of_not_any hany, List.append_assoc]
      · rw [addTo_of_not_any (hsame m hm ▸ hany), List.append_assoc, List.cons_append]
  none members hmembers := by
    by_cases hany : members.any (isPropertyOf a.name a.isStatic) = true
    · rw [addTo_of_any hany]
      exact forall_modifyFirst (fun m hm => by rwa [isPropertyOf_writable]) hmembers
    · rw [addTo_of_not_any hany]
      refine List.forall_mem_append.mpr ⟨hmembers, List.forall_mem_singleton.mpr ?_⟩
      rw [isPropertyOf_property, h]

/-- The first accessor of the name. -/
lemma addTo_first (h : a.isOf name isStatic = true)
    (hmembers : ∀ m ∈ members, isPropertyOf name isStatic m = false) :
    a.addTo scope members = members ++ [a.property scope] := by
  obtain ⟨rfl, rfl⟩ := isOf_iff.mp h
  exact addTo_of_not_any (by simpa using hmembers)

/-- A further accessor of the name. -/
lemma addTo_again (h : a.isOf name isStatic = true)
    (hfront : ∀ m ∈ front, isPropertyOf name isStatic m = false) {m : Member}
    (hm : isPropertyOf name isStatic m = true) :
    a.addTo scope (front ++ m :: back) = front ++ writable m :: back := by
  obtain ⟨rfl, rfl⟩ := isOf_iff.mp h
  have hany : ¬front.any (isPropertyOf a.name a.isStatic) = true := by
    simpa using hfront
  rw [addTo_of_any (by simp [hm]), modifyFirst_append, if_neg hany, modifyFirst, if_pos hm]

end Accessor

/-! ## A whole body -/

/-- What each element of a body does to the members before it. -/
structure Body.Steps {α : Type} (b : Body α) (scope : LoweringScope)
    (step : α → List Member → List Member) : Prop where
  lower : ∀ xs, (b.lower xs).Yields scope (· = xs.foldl (fun members x => step x members) [])
  accessor : ∀ {x a}, b.accessor? x = some a → step x = a.addTo scope
  other : ∀ {x name isStatic}, b.accessor? x = none → b.property? x ≠ some (name, isStatic) →
    Around name isStatic (step x)

lemma Body.exists_accessor {α : Type} {b : Body α} {name : String} {isStatic : Bool} {x : α}
    (h : b.isAccessorOf name isStatic x = true) :
    ∃ a, b.accessor? x = some a ∧ a.isOf name isStatic = true := by
  unfold isAccessorOf at h
  cases ha : b.accessor? x with
  | none => simp [ha] at h
  | some a => exact ⟨a, rfl, by simpa [ha] using h⟩

namespace Body.Steps

variable {α : Type} {b : Body α} {scope : LoweringScope} {step : α → List Member → List Member}
  (h : b.Steps scope step) {name : String} {isStatic : Bool}
include h

/-- Elements that have nothing to do with a name. -/
lemma around {x : α} (haccessor : b.isAccessorOf name isStatic x = false)
    (hproperty : b.property? x ≠ some (name, isStatic)) : Around name isStatic (step x) := by
  cases hx : b.accessor? x with
  | none => exact h.other hx hproperty
  | some a =>
      rw [h.accessor hx]
      exact Accessor.around (by simpa [isAccessorOf, hx] using haccessor) scope

/-- They add no property of the name. -/
lemma foldl_none : ∀ {xs : List α} {members : List Member},
    (∀ x ∈ xs, b.isAccessorOf name isStatic x = false) →
    (∀ x ∈ xs, b.property? x ≠ some (name, isStatic)) →
    (∀ m ∈ members, isPropertyOf name isStatic m = false) →
      ∀ m ∈ xs.foldl (fun members x => step x members) members,
        isPropertyOf name isStatic m = false
  | [], _, _, _, hmembers => hmembers
  | x :: xs, members, haccessor, hproperty, hmembers => by
      obtain ⟨hx, hxs⟩ := List.forall_mem_cons.mp haccessor
      obtain ⟨hx', hxs'⟩ := List.forall_mem_cons.mp hproperty
      rw [List.foldl_cons]
      exact foldl_none hxs hxs' ((h.around hx hx').none members hmembers)

/-- **What comes after the first accessor**: further accessors of the name make its property
writable, and everything else is as if they and the property were not there. -/
lemma foldl_split : ∀ {xs : List α} {front back : List Member} {m : Member},
    (∀ x ∈ xs, b.property? x ≠ some (name, isStatic)) →
    (∀ m ∈ front ++ back, isPropertyOf name isStatic m = false) →
    isPropertyOf name isStatic m = true →
      ∃ front' back', front'.length = front.length ∧
        (xs.filter fun x => !b.isAccessorOf name isStatic x).foldl
          (fun members x => step x members) (front ++ back) = front' ++ back' ∧
        xs.foldl (fun members x => step x members) (front ++ m :: back) =
          front' ++ (if xs.any (b.isAccessorOf name isStatic) then writable m else m) :: back' ∧
        ∀ m ∈ front' ++ back', isPropertyOf name isStatic m = false
  | [], front, back, _, _, hnone, _ => ⟨front, back, rfl, rfl, rfl, hnone⟩
  | x :: xs, front, back, m, hproperty, hnone, hm => by
      obtain ⟨hx, hxs⟩ := List.forall_mem_cons.mp hproperty
      cases haccessor : b.isAccessorOf name isStatic x with
      | true =>
          obtain ⟨a, ha, hof⟩ := exists_accessor haccessor
          obtain ⟨front', back', hlength, hothers, hall, hnone'⟩ :=
            foldl_split (m := writable m) hxs hnone (by rwa [isPropertyOf_writable])
          refine ⟨front', back', hlength, ?_, ?_, hnone'⟩
          · simpa [haccessor] using hothers
          · rw [List.foldl_cons, h.accessor ha, Accessor.addTo_again hof
              (fun m hm => hnone m (List.mem_append_left _ hm)) hm, hall, writable_writable]
            simp [haccessor]
      | false =>
          have haround := h.around haccessor hx
          obtain ⟨front₁, back₁, hlength, hwithout, hwith⟩ := haround.split front back
          have hnone₁ := haround.none _ hnone
          rw [hwithout] at hnone₁
          obtain ⟨front', back', hlength', hothers, hall, hnone'⟩ := foldl_split hxs hnone₁ hm
          refine ⟨front', back', hlength'.trans hlength, ?_, ?_, hnone'⟩
          · simpa [haccessor, hwithout] using hothers
          · simpa [haccessor, hwith m hm] using hall

/-- **The accessors of a name in a body** are joined, if there are any and no plain property has the
name. -/
lemma joins {xs : List α} (hsome : ∃ x ∈ xs, b.isAccessorOf name isStatic x = true)
    (hproperty : ∀ x ∈ xs, b.property? x ≠ some (name, isStatic)) :
    b.Joins scope name isStatic xs := by
  obtain ⟨y, hy, hyof⟩ := hsome
  obtain ⟨x, before, after, hbefore, hx, rfl, -⟩ := List.exists_of_eraseP hy hyof
  simp only [Bool.not_eq_true] at hbefore
  obtain ⟨hproperty₁, hproperty₂⟩ := List.forall_mem_append.mp hproperty
  obtain ⟨-, hproperty₂⟩ := List.forall_mem_cons.mp hproperty₂
  obtain ⟨first, hfirst, hof⟩ := exists_accessor hx
  have hname := Accessor.isOf_iff.mp hof
  -- The members before the first accessor, which makes the property.
  have hfront : ∀ m ∈ before.foldl (fun members x => step x members) [],
      isPropertyOf name isStatic m = false := h.foldl_none hbefore hproperty₁ (by simp)
  generalize hmembers : before.foldl (fun members x => step x members) [] = members at hfront
  have hmade := (first.isPropertyOf_property scope name isStatic).trans hof
  have hfront' : ∀ m ∈ members ++ [], isPropertyOf name isStatic m = false := by
    simpa using hfront
  obtain ⟨front, back, hlength, hothers, hall, hnone⟩ := h.foldl_split hproperty₂ hfront' hmade
  have hbefore' : before.filter (fun y => !b.isAccessorOf name isStatic y) = before :=
    List.filter_eq_self.mpr fun y hy => by simp [hbefore y hy]
  refine ⟨before, after, x, first, front, back,
    !after.any (b.isAccessorOf name isStatic) && !first.isSetter, rfl, hfirst, hof, hbefore,
    first.signature.lowerAccessor_steady first.isSetter scope, ?_, ?_, ?_, hnone, ?_⟩
  · refine (h.lower _).weaken fun result hresult => ?_
    rw [hresult, List.foldl_append, hmembers, List.foldl_cons, h.accessor hfirst,
      Accessor.addTo_first hof hfront, hall]
    congr 2
    rw [← hname.1, ← hname.2]
    cases after.any (b.isAccessorOf first.name first.isStatic) <;> rfl
  · refine (h.lower _).weaken fun result hresult => ?_
    rw [hresult, List.filter_append, List.foldl_append, hbefore', hmembers,
      List.filter_cons_of_neg (by simp [hx]), ← hothers, List.append_nil]
  · exact (h.lower _).weaken fun result hresult => by rw [hresult, hmembers, hlength]
  · have hnot : before.filter (b.isAccessorOf name isStatic) = [] :=
      List.filter_eq_nil_iff.mpr fun y hy => by simp [hbefore y hy]
    rw [List.filter_append, hnot, List.nil_append, List.filter_cons_of_pos hx]
    simp [List.filter_eq_nil_iff]

end Body.Steps

/-! ## Object types, interfaces and classes -/

/-- **What an element adds** that is no accessor: at most the property that it is itself, and
members that are no properties. -/
def Adds (step : List Member → List Member) (property? : Option (String × Bool)) : Prop :=
  ∃ more, step = (· ++ more) ∧ ∀ m ∈ more, ∀ name isStatic,
    isPropertyOf name isStatic m = true → property? = some (name, isStatic)

namespace Adds

variable {step : List Member → List Member} {property? : Option (String × Bool)}

/-- It leaves the properties of other names alone. -/
lemma around (h : Adds step property?) {name : String} {isStatic : Bool}
    (hne : property? ≠ some (name, isStatic)) : Around name isStatic step := by
  obtain ⟨more, rfl, hmore⟩ := h
  exact .append fun m hm => Bool.eq_false_iff.mpr fun hproperty =>
    hne (hmore m hm name isStatic hproperty)

/-- An element that is left out. -/
lemma nothing (property? : Option (String × Bool)) : Adds id property? :=
  ⟨[], funext fun members => (List.append_nil members).symm, nofun⟩

/-- An element that becomes a member. -/
lemma member {α : Type} {scope : LoweringScope} (w : Lower α) (f : α → Member)
    (h : ∀ a name isStatic, isPropertyOf name isStatic (f a) = true →
      property? = some (name, isStatic)) :
    Adds (fun members => (w >>= fun a => pure (members ++ [f a])).value scope) property? :=
  ⟨[f (w.value scope)], funext fun _ => Lower.value_bind fun _ => .pure _,
    List.forall_mem_singleton.mpr (h _)⟩

/-- An element that becomes a property. -/
lemma property {scope : LoweringScope} (w : Lower Ty) (name : String)
    (optional readonly isStatic : Bool) (span : Span) :
    Adds (fun members => (w >>= fun type => pure (members ++
      [⟨some name, .property type optional readonly, isStatic, span⟩])).value scope)
      (some (name, isStatic)) :=
  .member w _ fun type name' isStatic' h => by
    simp only [isPropertyOf, Bool.and_eq_true, beq_iff_eq, Option.some.injEq] at h
    rw [h.1.1, h.1.2]

/-- An element that becomes a member of another kind. -/
lemma other {α : Type} {scope : LoweringScope} (w : Lower α) (f : α → Member)
    (h : ∀ a, (f a).isProperty = false) (property? : Option (String × Bool)) :
    Adds (fun members => (w >>= fun a => pure (members ++ [f a])).value scope) property? :=
  .member w f fun a name isStatic hproperty => by
    simp [isPropertyOf, h a] at hproperty

end Adds

namespace Source

/-- What an element of an object type or interface does to the members before it. -/
def MemberNode.step (scope : LoweringScope) (node : MemberNode) (members : List Member) :
    List Member :=
  (node.lowerOnto members).value scope

variable {scope : LoweringScope}

lemma MemberNode.lowerAllOnto_yields : ∀ (nodes : List MemberNode) (members : List Member),
    (MemberNode.lowerAllOnto members nodes).Yields scope
      (· = nodes.foldl (fun members node => node.step scope members) members)
  | [], _ => .pure rfl
  | node :: rest, members =>
      .bind (node.lowerOnto_steady members scope) fun _ hstep =>
        hstep ▸ lowerAllOnto_yields rest _

lemma MemberNode.step_accessor {node : MemberNode} {a : Accessor} (h : node.accessor? = some a) :
    node.step scope = a.addTo scope := by
  funext members
  cases node with
  | method span key kind optional signature =>
      simp only [MemberNode.accessor?] at h
      cases hkey : key.name? with
      | none => simp [hkey] at h
      | some name =>
          cases kind with
          | method => simp [hkey] at h
          | getter | setter =>
              simp only [hkey, Option.some.injEq] at h
              subst h
              simp only [MemberNode.step, MemberNode.lowerOnto, hkey]
              exact Lower.value_bind fun _ => .pure _
  | property | call | construct | index => cases h

lemma MemberNode.step_other {node : MemberNode} (h : node.accessor? = none) :
    Adds (node.step scope) node.property? := by
  unfold MemberNode.step
  cases node with
  | property span key optional readonly type =>
      simp only [MemberNode.lowerOnto, MemberNode.property?]
      cases key.name? with
      | none => exact .nothing _
      | some name => exact .property _ name optional readonly false span
  | method span key kind optional signature =>
      simp only [MemberNode.accessor?] at h
      simp only [MemberNode.lowerOnto]
      cases hkey : key.name? with
      | none => exact .nothing _
      | some name =>
          cases kind with
          | method => exact .other _ _ (fun _ => rfl) _
          | getter | setter => simp [hkey] at h
  | call span signature => exact .other _ _ (fun _ => rfl) _
  | construct span signature => exact .other _ _ (fun _ => rfl) _
  | index span isStatic keyName key value =>
      exact .other (do return (← key.lower, ← value.lower))
        (fun p => ⟨none, .index ⟨[], [⟨keyName, p.1, false, false⟩], p.2⟩, isStatic, span⟩)
        (fun _ => rfl) _

end Source

lemma Body.ofObject_steps (scope : LoweringScope) :
    Body.ofObject.Steps scope (MemberNode.step scope) where
  lower xs := MemberNode.lowerAllOnto_yields xs []
  accessor := MemberNode.step_accessor
  other hx := (MemberNode.step_other hx).around

/-- What an element of a class does to the members before it. -/
def Source.ClassElement.step (scope : LoweringScope) (self : Ty) (element : ClassElement)
    (members : List Member) : List Member :=
  (lowerElementOnto self members element).value scope

namespace Source.ClassElement

variable {scope : LoweringScope} {self : Ty}

lemma step_accessor {element : ClassElement} {a : Accessor} (h : element.accessor? = some a) :
    element.step scope self = a.addTo scope := by
  funext members
  cases element with
  | method span key kind isStatic optional isPrivate f =>
      simp only [accessor?] at h
      cases isPrivate with
      | true => cases h
      | false =>
          cases hkey : key.name? with
          | none => simp [hkey] at h
          | some name =>
              rcases kind with _ | kind
              · simp [hkey] at h
              · cases kind with
                | method => simp [hkey] at h
                | getter | setter =>
                    simp only [hkey, Option.some.injEq] at h
                    subst h
                    simp only [step, lowerElementOnto, hkey]
                    exact Lower.value_bind fun _ => .pure _
  | index m => exact congrFun (MemberNode.step_accessor h) members
  | property | accessor | initializer => cases h

lemma step_other {element : ClassElement} (h : element.accessor? = none) :
    Adds (element.step scope self) element.property? := by
  unfold step
  cases element with
  | method span key kind isStatic optional isPrivate f =>
      simp only [accessor?] at h
      simp only [lowerElementOnto]
      cases isPrivate with
      | true => exact .nothing _
      | false =>
          cases hkey : key.name? with
          | none => exact .nothing _
          | some name =>
              rcases kind with _ | kind
              · exact .other _ _ (fun _ => rfl) _
              · cases kind with
                | method => exact .other _ _ (fun _ => rfl) _
                | getter | setter => simp [hkey] at h
  | property span key isStatic optional readonly isPrivate type value =>
      simp only [lowerElementOnto, property?]
      cases isPrivate with
      | true => exact .nothing _
      | false =>
          cases key.name? with
          | none => exact .nothing _
          | some name => exact .property _ name optional readonly isStatic span
  | index m => exact MemberNode.step_other h
  | accessor => exact .nothing _
  | initializer => exact .nothing _

end Source.ClassElement

lemma lowerElements_yields (scope : LoweringScope) (self : Ty) (elements : List ClassElement) :
    (lowerElements self elements).Yields scope
      (· = elements.foldl (fun members element => element.step scope self members) []) := by
  unfold lowerElements
  generalize ([] : List Member) = members
  induction elements generalizing members with
  | nil => exact .pure rfl
  | cons element rest ih =>
      rw [List.foldlM_cons]
      exact .bind (lowerElementOnto_steady self members element scope) fun _ hstep =>
        hstep ▸ ih _

lemma Body.ofClass_steps (scope : LoweringScope) (self : Ty) :
    (Body.ofClass self).Steps scope (ClassElement.step scope self) where
  lower := lowerElements_yields scope self
  accessor := ClassElement.step_accessor
  other hx := (ClassElement.step_other hx).around

/-- **The accessors of a name make one property**, at the place and with the type of the first of
them, in every body of an object type, interface or class that has accessors of the name and no
plain property.  It is read-only if and only if there is no other accessor and this one is a getter,
and the other members are as if the accessors were absent. -/
theorem accessors_join (scope : LoweringScope) (self : Ty) (name : String) (isStatic : Bool) :
    (∀ nodes : List MemberNode,
      (∃ node ∈ nodes, Body.ofObject.isAccessorOf name isStatic node = true) →
      (∀ node ∈ nodes, node.property? ≠ some (name, isStatic)) →
        Body.ofObject.Joins scope name isStatic nodes) ∧
    ∀ elements : List ClassElement,
      (∃ element ∈ elements, (Body.ofClass self).isAccessorOf name isStatic element = true) →
      (∀ element ∈ elements, element.property? ≠ some (name, isStatic)) →
        (Body.ofClass self).Joins scope name isStatic elements :=
  ⟨fun _ => (Body.ofObject_steps scope).joins, fun _ => (Body.ofClass_steps scope self).joins⟩

/-- A getter and a setter with a method between them.  The property stands before the method, and
has the type that the getter gives. -/
theorem accessors_join_pair :
    let scope : LoweringScope := ⟨.empty, 0, "", [], [], none⟩
    let result (kind : Primitive) : TypeNode := ⟨⟨0, 0⟩, .keyword kind⟩
    let nodes : List MemberNode :=
      [.method ⟨0, 1⟩ (.identifier "x") .getter false ⟨[], [], none, some (result .number)⟩,
        .method ⟨2, 3⟩ (.identifier "x") .method false ⟨[], [], none, none⟩,
        .method ⟨4, 5⟩ (.identifier "x") .setter false
          ⟨[], [⟨.name "value", some (result .string), false, false, false⟩], none, none⟩]
    Body.ofObject.Joins scope "x" false nodes ∧
      (MemberNode.lowerAllOnto [] nodes).Yields scope
        (· = [⟨some "x", .property (.primitive .number) false false, false, ⟨0, 1⟩⟩,
          ⟨some "x", .method ⟨[], [], .any⟩ false, false, ⟨2, 3⟩⟩]) :=
  ⟨(accessors_join _ .any "x" false).1 _ ⟨_, List.mem_cons_self, by decide⟩ (by decide),
    fun _ => rfl⟩

set_option maxRecDepth 2000 in
/-- Two getters of a name.  Neither is a setter, but the property that they make may be written, and
a setter is written for it. -/
theorem generate_getters_write :
    let source := "interface A \x7b get x(): number; get x(): number; \x7d"
    let getter (span type : Span) : MemberNode := .method span (.identifier "x") .getter false
      ⟨[], [], none, some ⟨type, .keyword .number⟩⟩
    let nodes := [getter ⟨14, 30⟩ ⟨23, 29⟩, getter ⟨31, 47⟩ ⟨40, 46⟩]
    let text := "@JS()\nlibrary a;\n\nimport 'package:js/js.dart';\n\n@JS()\n@anonymous\n" ++
      "abstract class A \x7b\n  external num get x;\n  external set x(num value);\n\x7d\n"
    (∀ node ∈ nodes, ∃ a, node.accessor? = some a ∧ a.isOf "x" false = true ∧
      a.isSetter = false) ∧
    (∀ scope, (MemberNode.lowerAllOnto [] nodes).Yields scope
      (· = [⟨some "x", .property (.primitive .number) false false, false, ⟨14, 30⟩⟩])) ∧
    Source.parse .declarations source =
      some ⟨[.declaration false (.interface ⟨⟨0, 49⟩, "A", [], [], nodes⟩)]⟩ ∧
    generate [⟨"a", source⟩] {} = .ok [⟨"a", text, [], none⟩] := by
  intro source getter nodes text
  have hparse : Source.parse .declarations source =
      some ⟨[.declaration false (.interface ⟨⟨0, 49⟩, "A", [], [], nodes⟩)]⟩ := by cbv
  refine ⟨by simp [nodes, getter, MemberNode.accessor?, PropertyKey.name?, Accessor.isOf],
    fun _ _ => rfl, hparse, ?_⟩
  let file : SourceFile := ⟨"a", source⟩
  have hread : file.read = .ok _ := SourceFile.read_of_parse (by cbv) hparse (by decide +kernel)
  have hstem : moduleStem file.path = "a" := (moduleStem_of_fileName (by cbv)).trans (by decide)
  exact generate_singleton hread hstem (by decide +kernel)

end Interop
