import Interop.Emission.Declaration
import Interop.Proofs.Rendering

/-!
# Writing declarations leaves a trace

Members are grouped, groups are merged, and every symbol becomes declarations.  All of that is put
together from renderings of types, so it leaves a trace.  The faults that it can raise besides are
of two kinds.  Some cannot arise: a group is never empty, and what has an overload key has a
signature.  The others are faults of the table, which a settled session expects.

* `groupMembers_ne_nil`, `withSignature?_isSome` — why merging does not fail.
* **`scopeItems_traced`** — writing the declarations of a namespace leaves a trace.
-/

namespace Interop

variable {may : Failure → Prop} {table : SymbolTable}

/-! ## Parameters -/

lemma Slot.ofParam_traced (optional : Bool) (p : Param) :
    Work.Traced may table (Slot.ofParam optional p) :=
  .bind (distinctTypes_traced _) fun _ => .pure _

lemma Slot.add_traced (slot : Slot) (p : Param) : Work.Traced may table (slot.add p) :=
  .bind (DistinctTypes.add_traced render_traced _ _ _) fun _ => .pure _

lemma Slots.foldIn_traced : ∀ (slots : List Slot) (params : List Param),
    Work.Traced may table (Slots.foldIn slots params)
  | [], [] => .pure _
  | _ :: _, [] => .pure _
  | [], p :: ps => .bind (Slot.ofParam_traced true p) fun _ =>
      .bind (Slots.foldIn_traced [] ps) fun _ => .pure _
  | slot :: slots, p :: ps => .bind (Slot.add_traced slot p) fun _ =>
      .bind (Slots.foldIn_traced slots ps) fun _ => .pure _

lemma mergeSignatures_traced (first : Signature) (others : List Signature) :
    Work.Traced may table (mergeSignatures first others) := by
  refine .bind (.mapM fun p _ => Slot.ofParam_traced false p) fun slots => ?_
  refine .bind (distinctTypes_traced _) fun results => ?_
  refine .bind (.foldlM _ fun merged sig _ => ?_) fun merged => .pure _
  refine .bind (Slots.foldIn_traced _ _) fun slots => ?_
  exact .bind (DistinctTypes.add_traced render_traced _ _ _) fun _ => .pure _

/-! ## Groups -/

lemma mem_of_mem_distinct {xs : List String} {x : String} (h : x ∈ distinct xs) : x ∈ xs := by
  have hfold : ∀ (xs seen : List String),
      x ∈ xs.foldl (fun seen x => if seen.contains x then seen else seen ++ [x]) seen →
        x ∈ seen ∨ x ∈ xs := by
    intro xs
    induction xs with
    | nil => exact fun seen h => .inl h
    | cons y ys ih =>
        intro seen h
        rcases ih _ h with hseen | hys
        · dsimp only at hseen
          split_ifs at hseen
          · exact .inl hseen
          · rcases List.mem_append.mp hseen with hseen | hy
            · exact .inl hseen
            · exact .inr (List.mem_singleton.mp hy ▸ List.mem_cons_self)
        · exact .inr (List.mem_cons_of_mem y hys)
  exact (hfold xs [] h).resolve_left List.not_mem_nil

lemma addToGroups_ne_nil (m : Member) {groups : List (List Member)}
    (h : ∀ group ∈ groups, group ≠ []) : ∀ group ∈ addToGroups m groups, group ≠ [] := by
  induction groups with
  | nil =>
      intro group hgroup
      simp only [addToGroups, List.mem_singleton] at hgroup
      simp [hgroup]
  | cons first rest ih =>
      intro group hgroup
      simp only [addToGroups] at hgroup
      split_ifs at hgroup with hjoins
      · rcases List.mem_cons.mp hgroup with rfl | hrest
        · simp
        · exact h group (by simp [hrest])
      · rcases List.mem_cons.mp hgroup with rfl | hrest
        · exact h _ (by simp)
        · exact ih (fun g hg => h g (by simp [hg])) group hrest

/-- No group is empty. -/
lemma groupMembers_ne_nil (members : List Member) : ∀ group ∈ groupMembers members, group ≠ [] := by
  have hfold : ∀ (members : List Member) (groups : List (List Member)),
      (∀ group ∈ groups, group ≠ []) →
        ∀ group ∈ members.foldl (fun groups m => addToGroups m groups) groups, group ≠ [] := by
    intro members
    induction members with
    | nil => intro groups h; exact h
    | cons m rest ih => intro groups h; exact ih _ (addToGroups_ne_nil m h)
  exact hfold members [] (by simp)

/-- Members are put into groups, and nothing else is. -/
lemma mem_of_mem_groupMembers {members group : List Member} (hgroup : group ∈ groupMembers members)
    {m : Member} (hm : m ∈ group) : m ∈ members := by
  have hadd : ∀ (n : Member) (groups : List (List Member)), ∀ group ∈ addToGroups n groups,
      ∀ m ∈ group, m = n ∨ ∃ other ∈ groups, m ∈ other := by
    intro n groups
    induction groups with
    | nil => simp [addToGroups]
    | cons first rest ih =>
        intro group hgroup m hm
        simp only [addToGroups] at hgroup
        split_ifs at hgroup with hjoins
        · rcases List.mem_cons.mp hgroup with rfl | hgroup
          · rcases List.mem_append.mp hm with hm | hm
            · exact .inr ⟨first, List.mem_cons_self, hm⟩
            · exact .inl (List.mem_singleton.mp hm)
          · exact .inr ⟨group, List.mem_cons_of_mem _ hgroup, hm⟩
        · rcases List.mem_cons.mp hgroup with rfl | hgroup
          · exact .inr ⟨group, List.mem_cons_self, hm⟩
          · rcases ih group hgroup m hm with hm | ⟨other, hother, hm⟩
            · exact .inl hm
            · exact .inr ⟨other, List.mem_cons_of_mem _ hother, hm⟩
  have hfold : ∀ (more : List Member) (groups : List (List Member)),
      ∀ group ∈ more.foldl (fun groups n => addToGroups n groups) groups, ∀ m ∈ group,
        m ∈ more ∨ ∃ other ∈ groups, m ∈ other := by
    intro more
    induction more with
    | nil => exact fun groups group hgroup m hm => .inr ⟨group, hgroup, hm⟩
    | cons n more ih =>
        intro groups group hgroup m hm
        rcases ih _ group hgroup m hm with hm | ⟨other, hother, hm⟩
        · exact .inl (List.mem_cons_of_mem n hm)
        · rcases hadd n groups other hother m hm with rfl | hm
          · exact .inl List.mem_cons_self
          · exact .inr hm
  rcases hfold members [] group hgroup m hm with hm | ⟨other, hother, -⟩
  · exact hm
  · cases hother

/-- What has an overload key has a signature, which can be replaced. -/
lemma withSignature?_isSome {m : Member} {key : OverloadKey} (h : OverloadKey.of? m = some key)
    (sig : Signature) (optional : Bool) :
    ∃ kind, m.kind.withSignature? sig optional = some kind := by
  unfold OverloadKey.of? at h
  cases hkind : m.kind with
  | property => simp [hkind] at h
  | nested => simp [hkind] at h
  | method => exact ⟨_, rfl⟩
  | call => exact ⟨_, rfl⟩
  | construct => exact ⟨_, rfl⟩
  | index => exact ⟨_, rfl⟩

/-- A kind of member that is given a signature has it. -/
lemma MemberKind.signature?_withSignature? {kind kind' : MemberKind} {sig : Signature}
    {optional : Bool} (h : kind.withSignature? sig optional = some kind') :
    kind'.signature? = some sig := by
  cases kind <;> simp only [withSignature?, Option.some.injEq, reduceCtorEq] at h <;> subst h <;> rfl

lemma mergeGroup_traced {group : List Member} (hne : group ≠ []) :
    Work.Traced may table (mergeGroup group) := by
  cases group with
  | nil => exact absurd rfl hne
  | cons first rest =>
      simp only [mergeGroup]
      split
      · rename_i key m ms sig sigs hkey hsigs
        refine .bind (.pointAt _) fun _ => ?_
        refine .bind (mergeSignatures_traced sig sigs) fun merged => ?_
        obtain ⟨kind, hkind⟩ :=
          withSignature?_isSome hkey merged ((first :: m :: ms).all isOptionalMethod)
        rw [hkind]
        exact .table_bind (.pure _)
      · exact .pure _

lemma mergeMembers_traced (members : List Member) :
    Work.Traced may table (mergeMembers members) :=
  .mapM fun group hgroup => mergeGroup_traced (groupMembers_ne_nil members group hgroup)

/-! ## Parts of declarations -/

lemma declaredType_traced (ty : Ty) : Work.Traced may table (declaredType ty) :=
  .bind (render_traced ty {}) fun _ => .pure _

namespace SignatureText

lemma parts_traced (sig : Signature) (generics : String) :
    Work.Traced may table (parts sig generics) := by
  refine .bind (declaredType_traced _) fun result => ?_
  refine .bind (.mapM fun p _ => ?_) fun params => .pure _
  exact .bind (declaredType_traced _) fun _ => .pure _

lemma of_traced (sig : Signature) : Work.Traced may table (SignatureText.of sig) :=
  .inScope _ (parts_traced sig _)

lemma withoutGenerics_traced (sig : Signature) :
    Work.Traced may table (SignatureText.withoutGenerics sig) :=
  parts_traced sig ""

end SignatureText

lemma memberDecls_traced (className : String) (group : MemberGroup) :
    Work.Traced may table (memberDecls className group) := by
  refine .bind (.pointAt _) fun _ => ?_
  dsimp only
  cases group.effective.kind with
  | property type optional readonly => exact .bind (declaredType_traced _) fun _ => .pure _
  | method sig optional => exact .bind (SignatureText.of_traced _) fun _ => .pure _
  | call sig => exact .bind (SignatureText.of_traced _) fun _ => .pure _
  | construct sig => exact .bind (SignatureText.withoutGenerics_traced _) fun _ => .pure _
  | index sig => exact .bind (SignatureText.withoutGenerics_traced _) fun _ => .pure _
  | nested id => exact .pure _

/-! ## Declarations -/

/-- A variable has a type if it has a property. -/
lemma variableType?_eq_none {symbol : Symbol} (h : symbol.variableType? = none) :
    symbol.properties.isEmpty = true := by
  rw [List.isEmpty_iff, Symbol.properties, List.filter_eq_nil_iff]
  intro m hm hproperty
  have hnone := List.findSome?_eq_none_iff.mp h m hm
  cases hkind : m.kind <;> simp [Member.isProperty, hkind] at hnone hproperty

lemma Heritage.of_traced (symbol : Symbol) : Work.Traced may table (Heritage.of symbol) := by
  refine .foldlM _ fun h base _ => ?_
  refine .table_bind ?_
  split_ifs
  · exact .bind (declaredType_traced _) fun _ => .pure _
  · exact .bind (declaredType_traced _) fun _ => .pure _
  · exact .pure _

lemma classBody_traced (id : Nat) (symbol : Symbol) (name : String) :
    Work.Traced may table (classBody id symbol name) := by
  refine .bind (Heritage.of_traced symbol) fun heritage => ?_
  refine .table_bind ?_
  refine .bind (mergeMembers_traced _) fun groups => ?_
  exact .bind (.mapM fun group _ => memberDecls_traced name group) fun _ => .pure _

lemma functionItem_traced (id : Nat) (symbol : Symbol) (name : Option String)
    (group : MemberGroup) : Work.Traced may table (functionItem id symbol name group) := by
  unfold functionItem
  cases group.effective.signature? with
  | none => exact .pure _
  | some sig =>
      refine .bind (.pointAt _) fun _ => ?_
      refine .bind (SignatureText.of_traced sig) fun sig => ?_
      cases name with
      | none => exact .pure _
      | some name => exact .table_bind (.pure _)

section

variable {id : Nat} {symbol : Symbol} (hid : table.get? id = some symbol)
include hid

lemma classItem_traced (hkind : symbol.kind.isEmitted = true) :
    Work.Traced may table (classItem id symbol) := by
  refine .bind (.nameOf hid hkind) fun name => ?_
  cases name with
  | none => exact .pure _
  | some name => exact .inScope _ (classBody_traced id symbol name)

lemma functionItems_traced (hkind : symbol.kind = .function) :
    Work.Traced may table (functionItems id symbol) := by
  have hrest : Work.Traced may table (do
      let name ← Work.nameOf id
      let groups ← mergeMembers symbol.members
      return (← groups.mapM (functionItem id symbol name)).flatten) := by
    refine .bind (.nameOf hid (by rw [hkind]; rfl)) fun name => ?_
    refine .bind (mergeMembers_traced _) fun groups => ?_
    exact .bind (.mapM fun group _ => functionItem_traced id symbol name group) fun _ => .pure _
  unfold functionItems
  split_ifs with hempty
  · refine .bind (.throw fun s hs ht => ?_) fun _ => hrest
    exact hs.signature id symbol (ht ▸ hid) hkind hempty
  · exact hrest

lemma variableItems_traced (hkind : symbol.kind = .variable) :
    Work.Traced may table (variableItems id symbol) := by
  unfold variableItems
  cases htype : symbol.variableType? with
  | none =>
      refine .throw fun s hs ht => ?_
      exact hs.type id symbol (ht ▸ hid) hkind (variableType?_eq_none htype)
  | some typed =>
      refine .bind (declaredType_traced _) fun type => ?_
      refine .bind (.nameOf hid (by rw [hkind]; rfl)) fun name => ?_
      cases name with
      | none => exact .pure _
      | some name => exact .table_bind (.pure _)

lemma symbolItems_traced {inside : Nat → Work (List Item)}
    (h : ∀ inner, Work.Traced may table (inside inner)) :
    Work.Traced may table (symbolItems inside id symbol) := by
  refine .bind (.pointAt _) fun _ => ?_
  cases hkind : symbol.kind with
  | nameSpace => exact h id
  | klass | interface | enum =>
      exact .bind (classItem_traced hid (by rw [hkind]; rfl)) fun _ => .pure _
  | function => exact functionItems_traced hid hkind
  | «variable» => exact variableItems_traced hid hkind
  | «alias» | typeParameter => exact .pure _

end

/-- **Writing declarations leaves a trace**, however deep namespaces may stand inside one
another. -/
theorem scopeItems_traced (levels : Nat) : ∀ (file : Nat) (parent : Option Nat),
    Work.Traced may table (scopeItems levels file parent) := by
  induction levels with
  | zero => intro _ _; exact .pure _
  | succ levels ih =>
      intro file parent
      refine .table_bind ?_
      refine .bind (.mapM fun id _ => ?_) fun _ => .pure _
      cases hid : table.get? id with
      | none => exact .pure _
      | some symbol => exact symbolItems_traced hid fun inner => ih file (some inner)

lemma fileItems_traced (file : Nat) : Work.Traced may table (fileItems file) :=
  .table_bind (scopeItems_traced _ file none)

end Interop
