import Interop.Proofs.Signatures

/-!
# One declaration for each slot of a class

The target tells the members of a class apart by their names and by whether they are static.  A
getter and a setter may share a name, and nothing else may.  Members that are overloads of one
another become one declaration, so they do not get into each other's way.  All others keep their
declarations, whatever these are called: two properties of one name, a property and a method, call
signatures and a method with the name `call`, and a taken word beside its escaped form.

* `MemberSlot.Clashes` — declarations of which a class may have one only.
* `OutputDecl.Occupies` — the slot of a declaration, read off its header.
* `Member.slots` — the slots of a member; `Member.Rivals` — members that are declared under one name.
* `flatMap_slots_pairwise_iff` — the slots of groups are apart if and only if no members are rivals.
* **`classItem_slots`** — the slots that a class fills, and when no two declarations share one.
-/

namespace Interop

open Work

/-! ## Slots -/

/-- What a member of a class is called for. -/
inductive SlotRole where
  | getter
  | setter
  | method
  deriving DecidableEq

/-- What the target tells a member of a class by. -/
structure MemberSlot where
  role : SlotRole
  name : String
  isStatic : Bool
  deriving DecidableEq

/-- **Slots of which a class may fill one only**: their names are the same, and they are not a getter
and a setter. -/
def MemberSlot.Clashes (a b : MemberSlot) : Prop :=
  a.name = b.name ∧ a.isStatic = b.isStatic ∧
    (a.role = b.role ∨ a.role = .method ∨ b.role = .method)

lemma MemberSlot.Clashes.symm {a b : MemberSlot} (h : a.Clashes b) : b.Clashes a :=
  ⟨h.1.symm, h.2.1.symm, h.2.2.elim (.inl ·.symm) fun h => .inr h.symm⟩

/-- **The slot that a declaration in a class fills**; stubs, constructors and operators fill none. -/
inductive OutputDecl.Occupies : OutputDecl → Option MemberSlot → Prop
  | getter (type name : String) (isStatic : Bool) (metadata docs : List String) :
      Occupies (.ofMember (getterHeader (if isStatic then "static " else "") type name) metadata docs)
        (some ⟨.getter, name, isStatic⟩)
  | setter (type name : String) (isStatic : Bool) (metadata docs : List String) :
      Occupies (.ofMember (setterHeader (if isStatic then "static " else "") type name) metadata docs)
        (some ⟨.setter, name, isStatic⟩)
  | method (name : String) (sig : SignatureText) (isStatic : Bool) (metadata docs : List String) :
      Occupies (.ofMember (functionHeader (if isStatic then "static " else "") name sig) metadata
        docs) (some ⟨.method, name, isStatic⟩)
  | factory (owner params : String) (docs : List String) :
      Occupies (.ofMember ("external factory " ++ owner ++ "(" ++ params ++ ");") [] docs) none
  | reads (result params : String) (docs : List String) :
      Occupies (.ofMember ("external " ++ result ++ " operator [](" ++ params ++ ");") [] docs) none
  | writes (key result : String) :
      Occupies (.ofMember ("external void operator []=(" ++ key ++ ", " ++ result ++ " value);") []
        []) none
  | stub (header : String) : Occupies (.ofStub header) none

/-! ## The slots of a member -/

namespace Member

/-- The name that a member is to be declared under. -/
def slotName? (m : Member) : Option String :=
  match m.kind with
  | .property .. | .method .. => some (m.name.getD "")
  | .call _ => some "call"
  | .construct _ | .index _ | .nested _ => none

/-- Whether a member is declared static. -/
def slotStatic (m : Member) : Bool :=
  match m.kind with
  | .call _ => false
  | _ => m.isStatic

/-- What the declarations of a member are called for. -/
def slotRoles (m : Member) : List SlotRole :=
  match m.kind with
  | .property _ _ readonly => .getter :: if readonly then [] else [.setter]
  | .method .. | .call _ => [.method]
  | .construct _ | .index _ | .nested _ => []

/-- **The slots of a member**, if its name can be spelled. -/
def slots (m : Member) : List MemberSlot :=
  match m.slotName?.bind (Identifier.escape · .value) with
  | some name => m.slotRoles.map fun role => ⟨role, name, m.slotStatic⟩
  | none => []

/-- **Members that are declared under one name**: they have the same name, or one of them has the name
that the other one's is escaped to. -/
def Rivals (m n : Member) : Prop :=
  m.slotStatic = n.slotStatic ∧ ∃ a b, m.slotName? = some a ∧ n.slotName? = some b ∧
    Identifier.validate a .value ≠ .unusable ∧ Identifier.EscapesAlike .value a b

variable {m n : Member}

lemma mem_slots {slot : MemberSlot} : slot ∈ m.slots ↔ ∃ a, m.slotName? = some a ∧
    Identifier.escape a .value = some slot.name ∧ slot.role ∈ m.slotRoles ∧
      slot.isStatic = m.slotStatic := by
  obtain ⟨role, name, isStatic⟩ := slot
  unfold slots
  cases hname : m.slotName?.bind (Identifier.escape · .value) with
  | none =>
      rw [Option.bind_eq_none_iff] at hname
      simp only [List.not_mem_nil, false_iff, not_exists, not_and]
      intro a ha hspelling
      simp [hname a ha] at hspelling
  | some spelling =>
      obtain ⟨a, ha, hspelling⟩ := Option.bind_eq_some_iff.mp hname
      simp only [List.mem_map, MemberSlot.mk.injEq, ha, Option.some.injEq, exists_eq_left',
        hspelling]
      grind

/-- A getter and a setter are all that one member fills. -/
lemma slots_pairwise (m : Member) : m.slots.Pairwise fun a b => ¬ a.Clashes b := by
  have hroles : m.slotRoles.Pairwise fun r q => r ≠ q ∧ r ≠ .method ∧ q ≠ .method := by
    unfold slotRoles
    cases m.kind with
    | property type optional readonly => cases readonly <;> simp
    | method | call | construct | index | nested => simp
  unfold slots
  split
  · refine List.pairwise_map.mpr (hroles.imp ?_)
    rintro r q ⟨hne, hr, hq⟩ ⟨-, -, h | h | h⟩
    exacts [hne h, hr h, hq h]
  · exact .nil

/-- Of two members one fills a slot that leaves no room for the other one. -/
lemma exists_roles {a b : String} (hm : m.slotName? = some a) (hn : n.slotName? = some b) :
    ∃ r ∈ m.slotRoles, ∃ q ∈ n.slotRoles, r = q ∨ r = .method ∨ q = .method := by
  have hfirst : ∀ {k : Member} {c : String}, k.slotName? = some c →
      ∃ r ∈ k.slotRoles, r = .getter ∨ r = .method := by
    intro k c hk
    unfold slotName? at hk
    unfold slotRoles
    cases hkind : k.kind <;> simp [hkind] at hk ⊢
  obtain ⟨r, hr, hr'⟩ := hfirst hm
  obtain ⟨q, hq, hq'⟩ := hfirst hn
  refine ⟨r, hr, q, hq, ?_⟩
  rcases hr' with rfl | rfl <;> rcases hq' with rfl | rfl <;> simp

/-- **Rivals are members whose slots clash.** -/
lemma rivals_iff : m.Rivals n ↔ ∃ a ∈ m.slots, ∃ b ∈ n.slots, a.Clashes b := by
  constructor
  · rintro ⟨hstatic, a, b, ha, hb, hlegal, halike⟩
    obtain ⟨x, hx, hx'⟩ := halike.exists_spelling hlegal
    obtain ⟨r, hr, q, hq, hroles⟩ := exists_roles ha hb
    exact ⟨⟨r, x, m.slotStatic⟩, mem_slots.mpr ⟨a, ha, hx, hr, rfl⟩, ⟨q, x, n.slotStatic⟩,
      mem_slots.mpr ⟨b, hb, hx', hq, rfl⟩, rfl, hstatic, hroles⟩
  · rintro ⟨x, hx, y, hy, hname, hstatic, -⟩
    obtain ⟨a, ha, hspelling, -, hm⟩ := mem_slots.mp hx
    obtain ⟨b, hb, hspelling', -, hn⟩ := mem_slots.mp hy
    refine ⟨hm ▸ hn ▸ hstatic, a, b, ha, hb, fun hnone => ?_,
      (Identifier.escape_eq_iff hspelling hspelling').mp hname⟩
    simp [Identifier.escape, hnone, Identifier.Validity.spelling?] at hspelling

lemma Rivals.symm (h : m.Rivals n) : n.Rivals m := by
  obtain ⟨a, ha, b, hb, hclash⟩ := rivals_iff.mp h
  exact rivals_iff.mpr ⟨b, hb, a, ha, hclash.symm⟩

end Member

/-- The slot that overloads of a key compete for. -/
def OverloadKey.slots : OverloadKey → List MemberSlot
  | .named name isStatic =>
    ((Identifier.escape name .value).map (⟨.method, ·, isStatic⟩)).toList
  | .call => [⟨.method, "call", false⟩]
  | .construct | .index => []

lemma OverloadKey.slots_eq {m : Member} {key : OverloadKey} (h : OverloadKey.of? m = some key) :
    m.slots = key.slots := by
  have hcall : Identifier.escape "call" .value = some "call" := by decide +kernel
  unfold OverloadKey.of? at h
  unfold Member.slots Member.slotName? Member.slotRoles Member.slotStatic
  cases hkind : m.kind with
  | method sig optional =>
      simp only [hkind] at h ⊢
      obtain ⟨name, hname, rfl⟩ := Option.map_eq_some_iff.mp h
      simp only [hname, Option.getD_some, Option.bind_some, slots]
      cases Identifier.escape name .value <;> rfl
  | call sig =>
      simp only [hkind, Option.some.injEq] at h ⊢
      simp [← h, hcall, slots]
  | construct sig | index sig =>
      simp only [hkind, Option.some.injEq] at h ⊢
      simp [← h, slots]
  | property | nested => simp [hkind] at h

/-- Overloads compete for the same slots. -/
lemma Member.Overloads.slots_eq {m n : Member} (h : m.Overloads n) : n.slots = m.slots := by
  obtain ⟨key, hkey⟩ := Option.ne_none_iff_exists'.mp h.1
  rw [OverloadKey.slots_eq hkey, OverloadKey.slots_eq (h.2.trans hkey)]

/-! ## The slots of groups -/

/-- The slots of a group: those of its first member. -/
def groupSlots (group : List Member) : List MemberSlot :=
  group.head?.toList.flatMap Member.slots

lemma groupSlots_eq {group : List Member} (hgroup : group.Pairwise Member.Overloads) {m : Member}
    (hm : m ∈ group) : groupSlots group = m.slots := by
  cases group with
  | nil => cases hm
  | cons first rest =>
      have hfirst : groupSlots (first :: rest) = first.slots := by simp [groupSlots]
      rcases List.mem_cons.mp hm with rfl | hm
      · exact hfirst
      · exact hfirst.trans ((List.pairwise_cons.mp hgroup).1 m hm).slots_eq.symm

/-- **The slots of groups are apart** if and only if no two members that are no overloads of one
another are rivals. -/
lemma groupSlots_pairwise_iff (members : List Member) :
    ((groupMembers members).flatMap groupSlots).Pairwise (fun a b => ¬ a.Clashes b) ↔
      members.Pairwise fun m n => m.Overloads n ∨ ¬ m.Rivals n := by
  obtain ⟨groups, hgrouping, hgroups⟩ := groupMembers_grouping members
  let apart (x y : Member × Nat) : Prop := x.1.Overloads y.1 ∨ ¬ x.1.Rivals y.1
  have hsymm : ∀ {x y : Member × Nat}, apart x y → apart y x :=
    fun h => h.imp (·.symm) fun h h' => h h'.symm
  have hplaces : members.Pairwise (fun m n => m.Overloads n ∨ ¬ m.Rivals n) ↔
      groups.flatten.Pairwise apart := by
    rw [hgrouping.perm.pairwise_iff hsymm]
    conv_lhs => rw [← List.zipIdx_map_fst 0 members]
    exact List.pairwise_map
  -- inside of a group all are overloads, and of two groups the first members speak for all
  have hinside : ∀ group ∈ groups, group.Pairwise apart :=
    fun group hgroup => (hgrouping.together group hgroup).imp .inl
  have hslots : ∀ group ∈ groups, ∀ x ∈ group, groupSlots (group.map Prod.fst) = x.1.slots :=
    fun group hgroup x hx => groupSlots_eq
      (List.pairwise_map.mpr (hgrouping.together group hgroup)) (List.mem_map_of_mem hx)
  have hown : ∀ group ∈ groups, (groupSlots (group.map Prod.fst)).Pairwise
      fun a b => ¬ a.Clashes b := by
    intro group hgroup
    obtain ⟨x, hx⟩ := List.exists_mem_of_ne_nil group (hgrouping.nonempty group hgroup)
    exact hslots group hgroup x hx ▸ x.1.slots_pairwise
  rw [hplaces, hgroups, List.pairwise_flatten, List.flatMap_map, List.pairwise_flatMap,
    and_iff_right hinside, and_iff_right hown]
  constructor
  · intro h
    refine h.imp_of_mem fun {group other} hgroup hother hclash x hx y hy => .inr fun hrivals => ?_
    obtain ⟨a, ha, b, hb, hab⟩ := Member.rivals_iff.mp hrivals
    exact hclash a (hslots group hgroup x hx ▸ ha) b (hslots other hother y hy ▸ hb) hab
  · intro h
    refine (h.and hgrouping.apart).imp_of_mem fun {group other} hgroup hother hapart a ha b hb hab => ?_
    obtain ⟨x, hx⟩ := List.exists_mem_of_ne_nil group (hgrouping.nonempty group hgroup)
    obtain ⟨y, hy⟩ := List.exists_mem_of_ne_nil other (hgrouping.nonempty other hother)
    refine (hapart.1 x hx y hy).elim (hapart.2 x hx y hy) fun hnot => hnot ?_
    exact Member.rivals_iff.mpr ⟨a, hslots group hgroup x hx ▸ ha, b, hslots other hother y hy ▸ hb,
      hab⟩

/-- **The slots of a class**: those of the groups of its members. -/
def Symbol.slots (symbol : Symbol) : List MemberSlot :=
  (groupMembers symbol.members).flatMap groupSlots

/-! ## What is written for a class -/

/-- **Declarations that fill slots**, one after another. -/
def FillSlots (decls : List OutputDecl) (slots : List MemberSlot) : Prop :=
  ∃ marks, List.Forall₂ OutputDecl.Occupies decls marks ∧ marks.reduceOption = slots

namespace FillSlots

lemma one {decl : OutputDecl} {mark : Option MemberSlot} (h : decl.Occupies mark) :
    FillSlots [decl] mark.toList :=
  ⟨[mark], .cons h .nil, by cases mark <;> rfl⟩

lemma append {decls more : List OutputDecl} {slots others : List MemberSlot}
    (h : FillSlots decls slots) (k : FillSlots more others) :
    FillSlots (decls ++ more) (slots ++ others) := by
  obtain ⟨marks, hmarks, rfl⟩ := h
  obtain ⟨rest, hrest, rfl⟩ := k
  exact ⟨marks ++ rest, List.rel_append hmarks hrest, List.reduceOption_append marks rest⟩

lemma flatten {α : Type} {f : α → List MemberSlot} {xs : List α} {parts : List (List OutputDecl)}
    (h : List.Forall₂ (fun x part => FillSlots part (f x)) xs parts) :
    FillSlots parts.flatten (xs.flatMap f) := by
  induction h with
  | nil => exact ⟨[], .nil, rfl⟩
  | cons hpart _ ih => exact hpart.append ih

end FillSlots

lemma propertyDecls_fills (m : Member) (name type : String) (readonly : Bool) (docs : List String) :
    FillSlots (propertyDecls (staticModifier m) name type readonly docs)
      (match Identifier.escape name .value with
        | some spelling => (SlotRole.getter :: if readonly then [] else [.setter]).map
            (⟨·, spelling, m.isStatic⟩)
        | none => []) := by
  have hdeclare : ∀ (spelling : String) (metadata : List String), FillSlots
      (.ofMember (getterHeader (staticModifier m) type spelling) metadata docs ::
        if readonly then [] else [.ofMember (setterHeader (staticModifier m) type spelling) metadata []])
      ((SlotRole.getter :: if readonly then [] else [.setter]).map (⟨·, spelling, m.isStatic⟩)) := by
    intro spelling metadata
    cases readonly
    · exact (FillSlots.one (.getter ..)).append (.one (.setter ..))
    · exact .one (.getter ..)
  unfold propertyDecls Identifier.escape
  cases Identifier.validate name .value with
  | usable => exact hdeclare name []
  | escaped spelling => exact hdeclare spelling [scriptName name]
  | unusable => exact .one (.stub _)

lemma methodDecl_fills (m : Member) (name : String) (sig : SignatureText) (docs : List String) :
    FillSlots [methodDecl (staticModifier m) name sig docs]
      (match Identifier.escape name .value with
        | some spelling => [⟨.method, spelling, m.isStatic⟩]
        | none => []) := by
  unfold methodDecl Identifier.escape
  cases Identifier.validate name .value with
  | usable => exact .one (.method ..)
  | escaped spelling => exact .one (.method ..)
  | unusable => exact .one (.stub _)

/-- What is declared for a group fills the slots of the member that stands for it. -/
lemma memberDecls_fills (className : String) (group : MemberGroup) :
    (memberDecls className group).Yields (fun _ => True) (fun _ => True)
      (FillSlots · group.effective.slots) := by
  have hcall : Identifier.escape "call" .value = some "call" := by decide +kernel
  refine .bind (.results _) fun _ _ => ?_
  dsimp only
  unfold Member.slots Member.slotName? Member.slotRoles Member.slotStatic
  cases group.effective.kind with
  | property type optional readonly =>
      exact .map (.results _) fun type _ => propertyDecls_fills ..
  | method sig optional => exact .map (.results _) fun text _ => methodDecl_fills ..
  | call sig =>
      refine .map (.results _) fun text _ => ?_
      simp only [Option.bind_some, hcall]
      exact .one (.method "call" text false [] group.docs)
  | construct sig => exact .map (.results _) fun text _ => .one (.factory ..)
  | index sig =>
      exact .map (.results _) fun text _ => (FillSlots.one (.reads ..)).append (.one (.writes ..))
  | nested id => exact .pure ⟨[], .nil, rfl⟩

/-- The member that stands for a group fills the slots of the group. -/
lemma MergesGroup.slots {s t : Session} {group : List Member} {merged : MemberGroup}
    (h : MergesGroup s t group merged) : merged.effective.slots = groupSlots group := by
  cases h with
  | alone m => simp [MemberGroup.effective, groupSlots]
  | @together first second rest key sig whole sigs kind hkey _ _ hkind =>
      have hsame := (OverloadKey.of?_withSignature? hkind).trans hkey
      simp [MemberGroup.effective, groupSlots, OverloadKey.slots_eq hkey,
        OverloadKey.slots_eq hsame]

/-- **What is written for a class**: a stub with nothing in it, or declarations that fill the slots of
the class. -/
def Symbol.FilledBy (symbol : Symbol) (item : Item) : Prop :=
  (item.decl.kind = .stub ∧ item.members = []) ∨
    (item.decl.kind = .klass ∧ FillSlots item.members symbol.slots)

lemma classItem_fills (id : Nat) (symbol : Symbol) :
    (classItem id symbol).Yields (fun _ => True) (fun _ => True) symbol.FilledBy := by
  have hgroups : (mergeMembers symbol.members).Yields (fun _ => True) (fun _ => True)
      (List.Forall₂ (fun group merged => groupSlots group = merged.effective.slots)
        (groupMembers symbol.members)) :=
    .forall₂_mapM fun group hgroup => .of_exec (fun _ _ => trivial) (fun _ _ _ _ => trivial)
      fun s _ merged t hrun =>
        (mergesGroup_of_exec (overloads_of_mem_groupMembers hgroup) hrun).slots.symm
  refine .bind (.results _) fun name _ => ?_
  cases name with
  | none => exact .pure (.inl ⟨rfl, rfl⟩)
  | some name =>
      refine .within (J := fun _ => True) (fun _ _ => trivial) (fun _ _ => trivial) ?_
      refine .bind (.results _) fun heritage _ => .bind (.results _) fun table _ => ?_
      refine .bind hgroups fun groups hslots => ?_
      refine .map (.forall₂_mapM fun group _ => memberDecls_fills name group) fun parts hparts => ?_
      have hsame : symbol.slots = groups.flatMap fun group => group.effective.slots := by
        rw [← List.forall₂_map_right_iff, ← List.forall₂_map_left_iff, List.forall₂_eq_eq_eq]
          at hslots
        rw [Symbol.slots, List.flatMap_def, List.flatMap_def, hslots]
      exact .inr ⟨rfl, hsame ▸ FillSlots.flatten hparts⟩

lemma symbolItems_fills (inside : Nat → Work (List Item)) (id : Nat) {symbol : Symbol}
    (hkind : symbol.kind ∈ [.klass, .interface, .enum]) :
    (symbolItems inside id symbol).Yields (fun _ => True) (fun _ => True) fun items =>
      ∃ item, items = [item] ∧ symbol.FilledBy item := by
  have hclass : (classItem id symbol >>= fun item => pure [item]).Yields (fun _ => True)
      (fun _ => True) fun items => ∃ item, items = [item] ∧ symbol.FilledBy item :=
    .map (classItem_fills id symbol) fun item hitem => ⟨item, rfl, hitem⟩
  refine .bind (.results _) fun _ _ => ?_
  simp only [List.mem_cons, List.not_mem_nil, or_false] at hkind
  rcases hkind with hkind | hkind | hkind <;> rw [hkind] <;> exact hclass

/-- **No two declarations in a class share a slot**, unless two of its members are rivals and no
overloads of one another.  A library that is not given up is made of what its symbols leave, in the
order of the walk through its files.  A class, interface or enum leaves a stub, or a class in which the
declarations fill the slots of its members, overloads counted once.  No two of these slots clash if and
only if all members that are declared under one name are overloads of one another: so members may
clash that have one name and are no methods, or a method and another member, and so may members with
different names, of which one is what the other one is escaped to. -/
theorem generate_slots {files : List SourceFile} {programs : List Source.Program}
    (options : GenerationOptions) (hread : files.mapM SourceFile.read = .ok programs) :
    let plan := planRun options.merge files programs
    (∀ symbol : Symbol, symbol.slots.Pairwise (fun a b => ¬ a.Clashes b) ↔
      symbol.members.Pairwise fun m n => m.Overloads n ∨ ¬ m.Rivals n) ∧
    ∃ session units, Session.prepare plan.table options plan.libraries = .ok session ∧
      generate files options = .ok units ∧
      List.Forall₂ (fun library unit => unit.failure = none → ∃ imports items,
        unit.text = libraryText library.name imports items ∧
        session.Lists (fun _ symbol items => symbol.kind ∈ [.klass, .interface, .enum] →
            ∃ item, items = [item] ∧ symbol.FilledBy item)
          (library.files.flatMap fun f => plan.table.fileWalk f.file) items)
        plan.libraries units := by
  intro plan
  refine ⟨fun symbol => groupSlots_pairwise_iff symbol.members, ?_⟩
  obtain ⟨session, hprepare, hready⟩ := prepare_session plan.table options plan.libraries
  have hs := hready.settled_any
  have hrelates : ∀ file, session.Relates (fun _ symbol items =>
      symbol.kind ∈ [.klass, .interface, .enum] →
        ∃ item, items = [item] ∧ symbol.FilledBy item) file := by
    refine fun file => ⟨fun id symbol _ hspace hkind => by simp [hspace] at hkind, ?_⟩
    intro id symbol hid _ hspace inside s hsame
    have hcalls : symbol.kind = .function → symbol.OnlyCalls := fun hkind =>
      collect_calls (placeFiles files programs) (hready.table_eq ▸ hid) hkind
    exact ⟨(symbolItems_ensures hs hid hcalls hspace inside s hsame).1, fun items hitems hkind =>
      (symbolItems_fills inside id hkind).of_ok trivial (Prod.ext hitems rfl)⟩
  refine ⟨session, _, hprepare, generate_eq hread hprepare, ?_⟩
  refine (writeLibraries_lists hs plan.libraries 0 (fun _ _ f _ => hrelates f.file)
    (.refl session)).imp fun library unit hunit hfailure => ?_
  obtain ⟨imports, items, hlists, htext⟩ := hunit hfailure
  rw [hready.table_eq] at hlists
  exact ⟨imports, items, htext, hlists⟩

set_option maxRecDepth 2000 in
/-- Two overloads and a property whose name is taken. -/
theorem generate_slots_overloads :
    let file : SourceFile := ⟨"a", "interface B \x7b f(): void; f(x: any): void; in: any; \x7d"⟩
    let item : Item :=
      ⟨⟨.klass, "abstract class B", ["@JS()", "@anonymous"], [], none, []⟩,
        [.ofMember "external void f([dynamic x]);" [] ["f(): void", "f(x: any): void"],
          .ofMember "external dynamic get $in;" [scriptName "in"] [],
          .ofMember "external set $in(dynamic value);" [scriptName "in"] []]⟩
    ∃ program session imports items, [file].mapM SourceFile.read = .ok [program] ∧
      let plan := planRun none [file] [program]
      Session.prepare plan.table {} plan.libraries = .ok session ∧
      generate [file] {} = .ok [⟨"a", libraryText "a" [] [item], [], none⟩] ∧
      libraryText "a" [] [item] = libraryText "a" imports items ∧
      session.Lists (fun _ symbol items => symbol.kind ∈ [.klass, .interface, .enum] →
        ∃ item, items = [item] ∧ symbol.FilledBy item) (plan.table.fileWalk 0) items := by
  intro file item
  let any (start : Nat) : Source.TypeNode := ⟨⟨start, start + 3⟩, .keyword .any⟩
  let program : Source.Program :=
    ⟨[.declaration false (.interface ⟨⟨0, 52⟩, "B", [], [],
      [.method ⟨14, 24⟩ (.identifier "f") .method false
          ⟨[], [], none, some ⟨⟨19, 23⟩, .keyword .void⟩⟩,
        .method ⟨25, 41⟩ (.identifier "f") .method false
          ⟨[], [⟨.name "x", some (any 30), false, false, false⟩], none,
            some ⟨⟨36, 40⟩, .keyword .void⟩⟩,
        .property ⟨42, 50⟩ (.identifier "in") false false (some (any 46))]⟩)]⟩
  have hread : file.read = .ok program :=
    SourceFile.read_of_parse (by cbv) (by cbv) (by decide +kernel)
  have hreads := SourceFile.mapM_read_singleton hread
  have hstem : moduleStem file.path = "a" := (moduleStem_of_fileName (by cbv)).trans (by decide)
  have hgenerate : generate [file] {} = .ok [⟨"a", libraryText "a" [] [item], [], none⟩] :=
    generate_singleton hread hstem (by decide +kernel)
  have hlibraries : (planRun none [file] [program]).libraries = [⟨"a", [⟨"a", 0, []⟩]⟩] := by
    rw [planRun_eq, placeFiles_singleton file program hstem]
    decide +kernel
  obtain ⟨-, session, units, hprepare, hunits, hall⟩ := generate_slots {} hreads
  obtain rfl := Except.ok.inj (hunits.symm.trans hgenerate)
  have hlists := hlibraries ▸ hall
  obtain ⟨imports, items, htext, hitems⟩ := (List.forall₂_cons.mp hlists).1 rfl
  exact ⟨program, session, imports, items, hreads, hprepare, hgenerate, htext,
    by simpa using hitems⟩

set_option maxRecDepth 2000 in
/-- A property whose name is taken, beside one with the name that it is escaped to.  Both are declared
under that name. -/
theorem generate_slots_escaped :
    let item : Item :=
      ⟨⟨.klass, "abstract class A", ["@JS()", "@anonymous"], [], none, []⟩,
        [.ofMember (getterHeader "" "dynamic" "$class") [scriptName "class"] [],
          .ofMember (setterHeader "" "dynamic" "$class") [scriptName "class"] [],
          .ofMember (getterHeader "" "dynamic" "$class") [] [],
          .ofMember (setterHeader "" "dynamic" "$class") [] []]⟩
    let slots : List MemberSlot := [⟨.getter, "$class", false⟩, ⟨.setter, "$class", false⟩,
      ⟨.getter, "$class", false⟩, ⟨.setter, "$class", false⟩]
    generate [⟨"a", "interface A \x7b class: any; $class: any; \x7d"⟩] {} =
        .ok [⟨"a", libraryText "a" [] [item], [], none⟩] ∧
      FillSlots item.members slots ∧ ¬ slots.Pairwise fun a b => ¬ a.Clashes b := by
  intro item slots
  refine ⟨?_, ?_, ?_⟩
  · let file : SourceFile := ⟨"a", "interface A \x7b class: any; $class: any; \x7d"⟩
    let any (start : Nat) : Source.TypeNode := ⟨⟨start, start + 3⟩, .keyword .any⟩
    let program : Source.Program := ⟨[.declaration false (.interface ⟨⟨0, 40⟩, "A", [], [],
      [.property ⟨14, 25⟩ (.identifier "class") false false (some (any 21)),
        .property ⟨26, 38⟩ (.identifier "$class") false false (some (any 34))]⟩)]⟩
    have hread : file.read = .ok program :=
      SourceFile.read_of_parse (by cbv) (by cbv) (by decide +kernel)
    have hstem : moduleStem file.path = "a" := (moduleStem_of_fileName (by cbv)).trans (by decide)
    exact generate_singleton hread hstem (by decide +kernel)
  · exact ⟨slots.map some, .cons (.getter "dynamic" "$class" false _ _)
      (.cons (.setter "dynamic" "$class" false _ _) (.cons (.getter "dynamic" "$class" false _ _)
        (.cons (.setter "dynamic" "$class" false _ _) .nil))), rfl⟩
  · simp [slots, MemberSlot.Clashes]

end Interop
