import Interop.Proofs.Collection.Lowering

/-!
# What becomes of the elements of a body

Every element of an interface, an object type or a class that is not left out becomes a member, or
joins the property that another accessor of its name made.

* `Mark`, `MemberNode.mark?`, `ClassElement.mark?` — what an element is known by among the members.
* `Mark.In` — that members have what an element stands for.
* `Lower.Yields` — what holds of the result of a computation, whatever it notes.
* **`MemberNode.lowerAllOnto_marks`, `lowerElements_marks`** — no element is lost on the way.
-/

namespace Interop

open Source

/-! ## Marks -/

/-- What an element of a body is known by among the members. -/
structure Mark where
  name : Option String
  isStatic : Bool
  span : Span
  /-- Whether the element is an accessor, which may join another one. -/
  joins : Bool

/-- **Members have what an element stands for**: a member at its place, or for an accessor a
property of its name that may be written. -/
def Mark.In (mark : Mark) (members : List Member) : Prop :=
  (∃ m ∈ members, m.span = mark.span ∧ m.name = mark.name ∧ m.isStatic = mark.isStatic) ∨
    (mark.joins = true ∧ ∃ name, mark.name = some name ∧
      ∃ m ∈ members, isPropertyOf name mark.isStatic m = true ∧ writable m = m)

namespace Source

/-- The mark of an element of an interface or an object type; there is none where a name has to be
computed. -/
def MemberNode.mark? : MemberNode → Option Mark
  | .property span key _ _ _ => key.name?.map fun name => ⟨some name, false, span, false⟩
  | .method span key kind _ _ =>
    key.name?.map fun name => ⟨some name, false, span, kind != .method⟩
  | .call span _ => some ⟨none, false, span, false⟩
  | .construct span _ => some ⟨none, false, span, false⟩
  | .index span isStatic _ _ _ => some ⟨none, isStatic, span, false⟩

/-- The mark of an element of a class; there is none for an element that is left out. -/
def ClassElement.mark? : ClassElement → Option Mark
  | .method span key kind isStatic _ isPrivate _ =>
    match isPrivate, key.name? with
    | false, some name =>
      match kind with
      | .constructor => some ⟨none, false, span, false⟩
      | .method kind => some ⟨some name, isStatic, span, kind != .method⟩
    | _, _ => none
  | .property span key isStatic _ _ isPrivate _ _ =>
    match isPrivate, key.name? with
    | false, some name => some ⟨some name, isStatic, span, false⟩
    | _, _ => none
  | .index m => m.mark?
  | .accessor .. | .initializer _ => none

/-- An element is known among the members unless its name has to be computed. -/
lemma MemberNode.isUnnamed_eq (node : MemberNode) : node.isUnnamed = node.mark?.isNone := by
  cases node with
  | property span key optional readonly type => exact Option.isNone_map.symm
  | method span key kind optional signature => exact Option.isNone_map.symm
  | call => rfl
  | construct => rfl
  | index => rfl

end Source

/-! ## Accessors -/

lemma writable_writable (m : Member) : writable (writable m) = writable m := by
  obtain ⟨name, kind, isStatic, span⟩ := m
  cases kind <;> rfl

lemma isPropertyOf_writable (name : String) (isStatic : Bool) (m : Member) :
    isPropertyOf name isStatic (writable m) = isPropertyOf name isStatic m := by
  obtain ⟨other, kind, isStatic', span⟩ := m
  cases kind <;> rfl

lemma writable_name (m : Member) : (writable m).name = m.name := by
  obtain ⟨name, kind, isStatic, span⟩ := m
  cases kind <;> rfl

lemma writable_isStatic (m : Member) : (writable m).isStatic = m.isStatic := by
  obtain ⟨name, kind, isStatic, span⟩ := m
  cases kind <;> rfl

lemma mem_modifyFirst (test : Member → Bool) (change : Member → Member) {m : Member} :
    ∀ {members : List Member}, m ∈ members →
      m ∈ modifyFirst test change members ∨ change m ∈ modifyFirst test change members
  | first :: rest, h => by
      simp only [modifyFirst]
      rcases List.mem_cons.mp h with rfl | h
      · split_ifs
        · exact .inr List.mem_cons_self
        · exact .inl List.mem_cons_self
      · split_ifs
        · exact .inl (List.mem_cons_of_mem _ h)
        · exact (mem_modifyFirst test change h).imp (List.mem_cons_of_mem _) (List.mem_cons_of_mem _)

/-- What is looked for is found where it is changed. -/
lemma change_mem_modifyFirst {test : Member → Bool} (change : Member → Member) :
    ∀ {members : List Member}, members.any test = true →
      ∃ m, test m = true ∧ change m ∈ modifyFirst test change members
  | first :: rest, h => by
      simp only [modifyFirst]
      cases hfirst : test first with
      | true => exact ⟨first, hfirst, List.mem_cons_self⟩
      | false =>
          rw [List.any_cons, hfirst, Bool.false_or] at h
          obtain ⟨m, hm, hmem⟩ := change_mem_modifyFirst change h
          exact ⟨m, hm, List.mem_cons_of_mem _ hmem⟩

namespace Mark.In

variable {mark : Mark} {members : List Member}

/-- A new member at the end. -/
lemma last {m : Member} (hspan : m.span = mark.span) (hname : m.name = mark.name)
    (hstatic : m.isStatic = mark.isStatic) : mark.In (members ++ [m]) :=
  .inl ⟨m, List.mem_append_right _ (List.mem_singleton.mpr rfl), hspan, hname, hstatic⟩

lemma mono (h : mark.In members) {more : List Member} (hsub : members ⊆ more) : mark.In more := by
  rcases h with ⟨m, hm, h⟩ | ⟨hjoins, name, hname, m, hm, h⟩
  · exact .inl ⟨m, hsub hm, h⟩
  · exact .inr ⟨hjoins, name, hname, m, hsub hm, h⟩

/-- Making a property writable loses no element. -/
lemma modifyFirst (h : mark.In members) (test : Member → Bool) :
    mark.In (Interop.modifyFirst test writable members) := by
  rcases h with ⟨m, hm, hspan, hname, hstatic⟩ | ⟨hjoins, name, hname, m, hm, hproperty, hwritable⟩
  · rcases mem_modifyFirst test writable hm with hm | hm
    · exact .inl ⟨m, hm, hspan, hname, hstatic⟩
    · exact .inl ⟨_, hm, (writable_span m).trans hspan, (writable_name m).trans hname,
        (writable_isStatic m).trans hstatic⟩
  · refine .inr ⟨hjoins, name, hname, m, ?_, hproperty, hwritable⟩
    have hmem := mem_modifyFirst test writable hm
    rwa [hwritable, or_self] at hmem

lemma addAccessor (h : mark.In members) (name : String) (ty : Ty) (isSetter isStatic : Bool)
    (span : Span) : mark.In (addAccessor name ty isSetter isStatic span members) := by
  unfold Interop.addAccessor
  split_ifs
  · exact h.modifyFirst _
  · exact h.mono (List.subset_append_left _ _)

end Mark.In

/-- An accessor makes a property, or joins one. -/
lemma Mark.in_addAccessor (name : String) (ty : Ty) (isSetter isStatic : Bool) (span : Span)
    (members : List Member) :
    (⟨some name, isStatic, span, true⟩ : Mark).In
      (addAccessor name ty isSetter isStatic span members) := by
  unfold addAccessor
  split_ifs with hany
  · obtain ⟨m, hm, hmem⟩ := change_mem_modifyFirst writable hany
    refine .inr ⟨rfl, name, rfl, writable m, hmem, ?_, writable_writable m⟩
    rw [isPropertyOf_writable, hm]
  · exact .last rfl rfl rfl

/-! ## Results -/

/-- What holds of the result of a computation, whatever it notes. -/
def Lower.Yields {α : Type} (scope : LoweringScope) (w : Lower α) (Q : α → Prop) : Prop :=
  ∀ before, Q ((w scope).run before).1

namespace Lower.Yields

variable {α β : Type} {scope : LoweringScope}

lemma pure {Q : α → Prop} {a : α} (h : Q a) : Yields scope (Pure.pure a) Q :=
  fun _ => h

lemma bind {P : α → Prop} {Q : β → Prop} {w : Lower α} {k : α → Lower β}
    (hw : Yields scope w P) (hk : ∀ a, P a → Yields scope (k a) Q) : Yields scope (w >>= k) Q :=
  fun before => hk _ (hw before) _

/-- Whatever comes first. -/
lemma after {Q : β → Prop} {w : Lower α} {k : α → Lower β} (hk : ∀ a, Yields scope (k a) Q) :
    Yields scope (w >>= k) Q :=
  fun _ => hk _ _

lemma weaken {P Q : α → Prop} {w : Lower α} (hw : Yields scope w P) (h : ∀ a, P a → Q a) :
    Yields scope w Q :=
  fun before => h _ (hw before)

end Lower.Yields

/-- What a computation yields holds beside what it gives. -/
lemma Lower.Gives.and_yields {α : Type} {scope : LoweringScope} {w : Lower α}
    {P : List Diagnostic → α → Prop} {Q : α → Prop} (hP : w.Gives scope P)
    (hQ : w.Yields scope Q) : w.Gives scope fun notes a => P notes a ∧ Q a := by
  intro before
  obtain ⟨notes, hnotes, ha⟩ := hP before
  exact ⟨notes, hnotes, ha, hQ before⟩

/-! ## Bodies -/

/-- Members that have all that others had, and an element if it has a mark. -/
def Retains (members : List Member) (mark? : Option Mark) (result : List Member) : Prop :=
  (∀ mark : Mark, mark.In members → mark.In result) ∧ ∀ mark, mark? = some mark → mark.In result

namespace Retains

variable {members : List Member}

/-- An element that is left out. -/
lemma skip (members : List Member) : Retains members none members :=
  ⟨fun _ h => h, nofun⟩

/-- An element that becomes a member. -/
lemma add (m : Member) (joins : Bool) :
    Retains members (some ⟨m.name, m.isStatic, m.span, joins⟩) (members ++ [m]) :=
  ⟨fun _ h => h.mono (List.subset_append_left _ _), fun _ h => Option.some.inj h ▸ .last rfl rfl rfl⟩

/-- An accessor. -/
lemma accessor (name : String) (ty : Ty) (isSetter isStatic : Bool) (span : Span) :
    Retains members (some ⟨some name, isStatic, span, true⟩)
      (addAccessor name ty isSetter isStatic span members) :=
  ⟨fun _ h => h.addAccessor _ _ _ _ _, fun _ h =>
    Option.some.inj h ▸ Mark.in_addAccessor _ _ _ _ _ _⟩

end Retains

/-- An element is not lost, and nothing is lost to it. -/
lemma MemberNode.lowerOnto_retains (scope : LoweringScope) (members : List Member)
    (node : MemberNode) : (node.lowerOnto members).Yields scope
      (Retains members node.mark?) := by
  cases node with
  | property span key optional readonly type =>
      simp only [MemberNode.lowerOnto, MemberNode.mark?]
      cases key.name? with
      | none => exact .after fun _ => .pure (.skip _)
      | some name =>
          refine .after fun ty => .pure ?_
          exact .add ⟨some name, .property ty optional readonly, false, span⟩ false
  | method span key kind optional signature =>
      simp only [MemberNode.lowerOnto, MemberNode.mark?]
      cases key.name? with
      | none => exact .after fun _ => .pure (.skip _)
      | some name =>
          cases kind with
          | method =>
              refine .after fun sig => .pure ?_
              exact .add ⟨some name, .method sig optional, false, span⟩ false
          | getter => exact .after fun ty => .pure (.accessor name ty false false span)
          | setter => exact .after fun ty => .pure (.accessor name ty true false span)
  | call span signature => exact .after fun sig => .pure (.add (.ofCall sig span) false)
  | construct span signature =>
      exact .after fun sig => .pure (.add ⟨none, .construct sig, false, span⟩ false)
  | index span isStatic keyName key value =>
      refine .after fun key => .after fun value => ?_
      exact .pure <|
        .add ⟨none, .index ⟨[], [⟨keyName, key, false, false⟩], value⟩, isStatic, span⟩ false

/-- **No element of an interface or an object type is lost**: one with a name that is known, or that
needs none, is among the members. -/
lemma MemberNode.lowerAllOnto_marks (scope : LoweringScope) : ∀ (nodes : List MemberNode)
    (members : List Member), (MemberNode.lowerAllOnto members nodes).Yields scope fun result =>
      (∀ mark : Mark, mark.In members → mark.In result) ∧
        ∀ node ∈ nodes, ∀ mark, node.mark? = some mark → mark.In result
  | [], members => .pure ⟨fun _ h => h, by simp⟩
  | node :: rest, members =>
      .bind (lowerOnto_retains scope members node) fun result hfirst =>
        (lowerAllOnto_marks scope rest result).weaken fun final hrest => by
          refine ⟨fun mark h => hrest.1 mark (hfirst.1 mark h), fun m hm mark hmark => ?_⟩
          rcases List.mem_cons.mp hm with rfl | hm
          · exact hrest.1 mark (hfirst.2 mark hmark)
          · exact hrest.2 m hm mark hmark

/-- An element of a class is not lost unless it is left out, and nothing is lost to it. -/
lemma lowerElementOnto_retains (scope : LoweringScope) (self : Ty) (members : List Member)
    (element : ClassElement) : (lowerElementOnto self members element).Yields scope
      (Retains members element.mark?) := by
  cases element with
  | method span key kind isStatic optional isPrivate f =>
      simp only [lowerElementOnto, ClassElement.mark?]
      cases isPrivate with
      | true => exact .pure (.skip _)
      | false =>
          cases key.name? with
          | none => exact .pure (.skip _)
          | some name =>
              cases kind with
              | constructor =>
                  refine .after fun sig => .pure ?_
                  exact .add ⟨none, .construct { sig with result := self }, false, span⟩ false
              | method kind =>
                  cases kind with
                  | method =>
                      refine .after fun sig => .pure ?_
                      exact .add ⟨some name, .method sig optional, isStatic, span⟩ false
                  | getter =>
                      exact .after fun ty => .pure (.accessor name ty false isStatic span)
                  | setter =>
                      exact .after fun ty => .pure (.accessor name ty true isStatic span)
  | property span key isStatic optional readonly isPrivate type value =>
      simp only [lowerElementOnto, ClassElement.mark?]
      cases isPrivate with
      | true => exact .pure (.skip _)
      | false =>
          cases key.name? with
          | none => exact .pure (.skip _)
          | some name =>
              refine .after fun ty => .pure ?_
              exact .add ⟨some name, .property ty optional readonly, isStatic, span⟩ false
  | index m => exact MemberNode.lowerOnto_retains scope members m
  | accessor => exact .pure (.skip _)
  | initializer => exact .pure (.skip _)

/-- **No element of a class is lost unless it is left out.** -/
lemma lowerElements_marks (scope : LoweringScope) (self : Ty) (elements : List ClassElement) :
    (lowerElements self elements).Yields scope fun result =>
      ∀ element ∈ elements, ∀ mark, element.mark? = some mark → mark.In result := by
  have hfold : ∀ (elements : List ClassElement) (members : List Member),
      (elements.foldlM (lowerElementOnto self) members).Yields scope fun result =>
        (∀ mark : Mark, mark.In members → mark.In result) ∧
          ∀ element ∈ elements, ∀ mark, element.mark? = some mark → mark.In result := by
    intro elements
    induction elements with
    | nil => exact fun members => .pure ⟨fun _ h => h, by simp⟩
    | cons element rest ih =>
        intro members
        rw [List.foldlM_cons]
        refine .bind (lowerElementOnto_retains scope self members element) fun result hfirst => ?_
        refine (ih result).weaken fun final hrest => ?_
        refine ⟨fun mark h => hrest.1 mark (hfirst.1 mark h), fun other hother mark hmark => ?_⟩
        rcases List.mem_cons.mp hother with rfl | hother
        · exact hrest.1 mark (hfirst.2 mark hmark)
        · exact hrest.2 other hother mark hmark
  exact (hfold elements []).weaken fun _ h => h.2

end Interop
