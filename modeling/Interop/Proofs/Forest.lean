import Interop.Proofs.Passages
import Mathlib.Logic.Relation

/-!
# The forest of an outline

Declarations are added one after another, each as a root or below one that is there already.  Links
go both ways, from a declaration to its parent and from a parent to its children, and every way of
adding keeps them in step.  So the declarations form a forest in which parents come first, and the
text of a declaration passes all below it in pre-order, each once.

* `OutlineStep`, `Outline.after` — what is done to an outline, and the outline that a history of
  this leads to.
* `Outline.IsForest` — parents come first, and children are linked once.  Each step keeps this.
* `Outline.blocks` — what the text of a declaration is put together from.
* `Outline.Preorder` — a declaration, and then the pre-orders of its children one after another.
* **`Outline.after_forest`** — the forest of a history, and how the text passes through it.
-/

namespace Interop

/-! ## Histories -/

/-- One thing that is done to an outline.  A declaration that is added is new: what it says of its
own place does not count. -/
inductive OutlineStep where
  | add (decl : OutputDecl) (parent : Option Nat)
  | addAt (decl : OutputDecl) (parent index : Nat)
  | setHeader (id : Nat) (header : String)

/-- The declaration below which another one is added. -/
def OutlineStep.parent? : OutlineStep → Option Nat
  | .add _ parent => parent
  | .addAt _ parent _ => some parent
  | .setHeader .. => none

namespace Outline

/-- The outline after a step. -/
def step (o : Outline) : OutlineStep → Outline
  | .add decl parent => o.add decl.bare parent
  | .addAt decl parent index => o.addAt decl.bare parent index
  | .setHeader id header => o.setHeader id header

/-- The outline that a history leads to. -/
def after (history : List OutlineStep) : Outline :=
  history.foldl step {}

/-- Every parent is one of the declarations that were added before.  Their numbers are those below
the size, since adding gives the size as the next number. -/
def ParentsFirst (history : List OutlineStep) : Prop :=
  ∀ i (hi : i < history.length), ∀ p ∈ history[i].parent?, p < (after (history.take i)).size

instance (history : List OutlineStep) : Decidable (ParentsFirst history) :=
  inferInstanceAs (Decidable (∀ i (hi : i < history.length), ∀ p ∈ history[i].parent?, _))

/-- The parent of a declaration. -/
def parent? (o : Outline) (id : Nat) : Option Nat :=
  (o.get? id).bind (·.parent)

/-- **The links of an outline.** -/
structure IsForest (o : Outline) : Prop where
  parent_lt : ∀ {id p : Nat}, o.parent? id = some p → p < id
  /-- The links to children are those to parents the other way round. -/
  mem_children : ∀ {id p : Nat}, id ∈ o.children p ↔ o.parent? id = some p
  children_nodup : ∀ p, (o.children p).Nodup

/-! ## Steps -/

section

variable {o : Outline} {decl : OutputDecl} {parent : Option Nat} {link : Nat → List Nat → List Nat}

lemma children_eq (o : Outline) (id : Nat) :
    o.children id = ((o.get? id).map (·.children)).getD [] := by
  unfold children
  cases o.get? id <;> rfl

lemma parent?_eq (o : Outline) (id : Nat) : o.parent? id = ((o.get? id).map (·.parent)).join := by
  unfold parent?
  cases o.get? id <;> rfl

lemma parent?_addWith (o : Outline) (decl : OutputDecl) (parent : Option Nat)
    (link : Nat → List Nat → List Nat) (id : Nat) :
    (o.addWith decl parent link).parent? id = if id = o.size then parent else o.parent? id := by
  have hpush : ((o.decls.push { decl with parent })[id]?).bind (·.parent) =
      if id = o.size then parent else o.parent? id := by
    rw [Array.getElem?_push, size]
    split_ifs <;> rfl
  cases parent with
  | none => exact hpush
  | some p =>
      rw [← hpush]
      simp only [parent?, get?, addWith, Array.getElem?_modify]
      split_ifs
      · rw [Option.bind_map]
        rfl
      · rfl

/-- A new declaration has no children, and is linked from its parent alone. -/
lemma children_addWith (hnew : decl.children = []) (hparent : ∀ p, parent = some p → p < o.size)
    (id : Nat) : (o.addWith decl parent link).children id =
      if parent = some id then link o.size (o.children id) else o.children id := by
  have hpush : ((o.decls.push { decl with parent })[id]?.map (·.children)).getD [] =
      o.children id := by
    rw [children_eq, get?, Array.getElem?_push]
    split_ifs with hid
    · rw [hid, Array.getElem?_eq_none (Nat.le_refl _)]
      exact hnew
    · rfl
  cases parent with
  | none => exact (children_eq _ _).trans hpush
  | some p =>
      by_cases hp : p = id
      · subst hp
        have hlt : p < o.decls.size := hparent p rfl
        rw [if_pos rfl, children_eq, children_eq]
        simp [addWith, get?, Array.getElem?_modify, Array.getElem?_push, hlt, Nat.ne_of_lt hlt, size]
      · rw [if_neg (by simpa using hp), ← hpush, children_eq]
        simp [addWith, get?, Array.getElem?_modify, hp]

lemma insertAt_eq (index id : Nat) (ids : List Nat) :
    insertAt index id ids = ids.insertIdx (min index ids.length) id := by
  induction ids generalizing index with
  | nil => cases index <;> rfl
  | cons first rest ih =>
      cases index with
      | zero => rfl
      | succ index =>
          rw [List.length_cons, Nat.succ_min_succ, List.insertIdx_succ_cons, ← ih]
          rfl

/-- A new declaration is linked once, wherever its parent puts it. -/
lemma IsForest.addWith (h : o.IsForest) (hnew : decl.children = [])
    (hparent : ∀ p, parent = some p → p < o.size)
    (hlink : ∀ id ids, (link id ids).Perm (id :: ids)) :
    (o.addWith decl parent link).IsForest := by
  have hold : ∀ {id p : Nat}, o.parent? id = some p → id ≠ o.size := by
    rintro id p hid rfl
    simp [parent?, get?, size] at hid
  refine ⟨fun {id p} hid => ?_, fun {id p} => ?_, fun p => ?_⟩
  · rw [parent?_addWith] at hid
    split_ifs at hid with hnewest
    · exact hnewest ▸ hparent p hid
    · exact h.parent_lt hid
  · rw [children_addWith hnew hparent, parent?_addWith]
    split_ifs with hp hid
    · simp [(hlink _ _).mem_iff, hid, hp]
    · simp [(hlink _ _).mem_iff, hid, h.mem_children]
    · exact iff_of_false (fun hmem => hold (h.mem_children.mp hmem) ‹_›) hp
    · exact h.mem_children
  · rw [children_addWith hnew hparent]
    split_ifs
    · refine ((hlink _ _).nodup_iff).mpr (List.nodup_cons.mpr ⟨fun hmem => ?_, h.children_nodup p⟩)
      exact hold (h.mem_children.mp hmem) rfl
    · exact h.children_nodup p

end

section

variable {o : Outline}

/-- A new header changes nothing else. -/
lemma map_get?_setHeader {α : Type} (f : OutputDecl → α) (o : Outline) (id : Nat) (header : String)
    (hf : ∀ decl, f { decl with header } = f decl) (other : Nat) :
    ((o.setHeader id header).get? other).map f = (o.get? other).map f := by
  simp only [setHeader, get?, Array.getElem?_modify]
  split_ifs
  · rw [Option.map_map]
    exact congrArg (Option.map · _) (funext hf)
  · rfl

lemma IsForest.setHeader (h : o.IsForest) (id : Nat) (header : String) :
    (o.setHeader id header).IsForest := by
  have hparent : ∀ other, (o.setHeader id header).parent? other = o.parent? other := fun other => by
    rw [parent?_eq, parent?_eq, map_get?_setHeader _ o id header fun _ => rfl]
  have hchildren : ∀ other, (o.setHeader id header).children other = o.children other :=
    fun other => by rw [children_eq, children_eq, map_get?_setHeader _ o id header fun _ => rfl]
  refine ⟨fun hid => h.parent_lt (hparent _ ▸ hid), ?_, fun p => hchildren p ▸ h.children_nodup p⟩
  intro id p
  rw [hchildren, hparent]
  exact h.mem_children

lemma IsForest.step (h : o.IsForest) (s : OutlineStep)
    (hparent : ∀ p, s.parent? = some p → p < o.size) : (o.step s).IsForest := by
  cases s with
  | add decl parent =>
      exact h.addWith rfl hparent fun id ids => List.perm_append_singleton id ids
  | addAt decl parent index =>
      refine h.addWith rfl hparent fun id ids => ?_
      rw [insertAt_eq]
      exact List.perm_insertIdx _ _ (Nat.min_le_right _ _)
  | setHeader id header => exact h.setHeader id header

end

/-! ## Histories that are forests -/

lemma isForest_empty : ({} : Outline).IsForest :=
  ⟨fun hid => by simp [parent?, get?] at hid, by simp [parent?, children, get?],
    fun p => by simp [children, get?]⟩

/-- **Every history leads to a forest**, if parents are added first. -/
lemma isForest_after (history : List OutlineStep) (h : ParentsFirst history) :
    (after history).IsForest := by
  induction history using List.reverseRecOn with
  | nil => exact isForest_empty
  | append_singleton earlier s ih =>
      have hearlier : ParentsFirst earlier := fun i hi p hp => by
        have := h i (by simp; omega)
        simp only [List.getElem_append_left hi, List.take_append_of_le_length hi.le] at this
        exact this p hp
      have hlast : ∀ p ∈ s.parent?, p < (after earlier).size := by
        simpa using h earlier.length (by simp)
      rw [after, List.foldl_append]
      exact (ih hearlier).step s hlast

/-- A declaration that is added at a place is linked at that place, or last where there are fewer
children, and all other links stay. -/
lemma children_step_addAt {o : Outline} (decl : OutputDecl) {parent : Nat} (index : Nat)
    (h : parent < o.size) (id : Nat) :
    (o.step (.addAt decl parent index)).children id =
      if id = parent then
        (o.children parent).insertIdx (min index (o.children parent).length) o.size
      else o.children id := by
  rw [step, addAt, children_addWith (show decl.bare.children = [] from rfl) (by simpa using h),
    insertAt_eq]
  by_cases hid : id = parent
  · rw [hid, if_pos rfl, if_pos rfl]
  · rw [if_neg hid, if_neg (by simpa using Ne.symm hid)]

lemma mem_roots {o : Outline} {id : Nat} (h : id ∈ o.roots) : o.parent? id = none := by
  obtain ⟨⟨decl, i⟩, hmem, rfl⟩ := List.mem_map.mp h
  obtain ⟨hdecl, hroot⟩ := List.mem_filter.mp hmem
  have hget : o.get? i = some decl := by
    simpa [get?] using (List.mem_zipIdx_iff_getElem?.mp hdecl)
  simpa [parent?, hget] using hroot

/-! ## Pre-order -/

/-- The declarations whose text stands within that of another one: its children, unless it is a
stub. -/
def shown (o : Outline) (id : Nat) : List Nat :=
  match o.get? id with
  | some decl => if decl.kind = .stub then [] else decl.children
  | none => []

/-- A declaration stands in the text of another one, at any depth, and not below a stub. -/
abbrev Reaches (o : Outline) : Nat → Nat → Prop :=
  Relation.ReflTransGen fun id child => child ∈ o.shown id

/-- **The pre-order** of what stands in the text of a declaration: the declaration, and then the
pre-orders of its children one after another. -/
inductive Preorder (o : Outline) : Nat → List Nat → Prop
  | node {id : Nat} {lists : List (List Nat)} :
      List.Forall₂ (Preorder o) (o.shown id) lists → Preorder o id (id :: lists.flatten)

/-- What the text of a declaration is put together from. -/
inductive Block where
  /-- The entries of a declaration itself. -/
  | declaration (depth id : Nat)
  | blank
  /-- The end of a class. -/
  | closing (depth : Nat)

/-- The declaration whose entries a block holds. -/
def Block.id? : Block → Option Nat
  | .declaration _ id => some id
  | .blank | .closing _ => none

/-- The entries of a block. -/
def blockPassages (o : Outline) : Block → List Passage
  | .declaration depth id => ((o.get? id).map fun decl => decl.passages depth).getD []
  | .blank => [⟨.declaration, 0, ""⟩]
  | .closing depth => [⟨.declaration, depth, "\x7d"⟩]

/-- The blocks of the declarations of a library, with the blank lines between them. -/
def separatedBlocks : Option DeclKind → List (Option DeclKind × List Block) → List Block
  | _, [] => []
  | previous, (kind, blocks) :: rest =>
    (if separator previous kind = "" then [] else [.blank]) ++ blocks ++ separatedBlocks kind rest

/-- The blocks of a declaration at a depth and of all below it. -/
def blocksFrom (o : Outline) : (levels : Nat) → (depth : Nat) → (id : Nat) → List Block
  | 0, _, _ => []
  | levels + 1, depth, id =>
    match o.get? id with
    | none => []
    | some decl => .declaration depth id ::
      match decl.kind with
      | .stub => []
      | .library => separatedBlocks none (decl.children.map fun child =>
          ((o.get? child).map (·.kind), o.blocksFrom levels depth child))
      | .klass => decl.children.flatMap (o.blocksFrom levels (depth + 1)) ++ [.closing depth]
      | .importDirective | .member | .function =>
        decl.children.flatMap (o.blocksFrom levels (depth + 1))

/-- The blocks of a declaration and of all below it. -/
def blocks (o : Outline) (id : Nat) : List Block :=
  o.blocksFrom (o.size + 1) 0 id

/-- The declarations whose entries are written, in order. -/
def written (blocks : List Block) : List Nat :=
  blocks.filterMap Block.id?

/-! ### Text -/

lemma flatMap_separatedBlocks (o : Outline) : ∀ (previous : Option DeclKind)
    (parts : List (Option DeclKind × List Block)),
    (separatedBlocks previous parts).flatMap o.blockPassages =
      separatedPassages previous (parts.map fun part => (part.1, part.2.flatMap o.blockPassages))
  | _, [] => rfl
  | previous, (kind, blocks) :: rest => by
      simp only [separatedBlocks, List.flatMap_append, List.map_cons, separatedPassages,
        flatMap_separatedBlocks o kind rest]
      split_ifs <;> rfl

/-- **The entries of an outline** are those of its blocks. -/
lemma flatMap_blocksFrom (o : Outline) (levels : Nat) : ∀ depth id,
    (o.blocksFrom levels depth id).flatMap o.blockPassages = o.passagesFrom levels depth id := by
  induction levels with
  | zero => exact fun _ _ => rfl
  | succ levels ih =>
      intro depth id
      simp only [blocksFrom, passagesFrom]
      cases hid : o.get? id with
      | none => rfl
      | some decl =>
          have hself : o.blockPassages (.declaration depth id) = decl.passages depth := by
            simp [blockPassages, hid]
          simp only [List.flatMap_cons, hself]
          cases decl.kind with
          | stub => rfl
          | library => simp [flatMap_separatedBlocks, ih, Function.comp_def]
          | klass => simp [List.flatMap_assoc, ih, blockPassages]
          | importDirective | member | function => simp [List.flatMap_assoc, ih]

/-! ### Order -/

lemma written_separatedBlocks : ∀ (previous : Option DeclKind)
    (parts : List (Option DeclKind × List Block)),
    written (separatedBlocks previous parts) = parts.flatMap fun part => written part.2
  | _, [] => rfl
  | previous, (kind, blocks) :: rest => by
      have hblank : written (if separator previous kind = "" then [] else [.blank]) = [] := by
        split_ifs <;> rfl
      rw [List.flatMap_cons, ← written_separatedBlocks kind rest]
      simp only [separatedBlocks, written, List.filterMap_append] at hblank ⊢
      rw [hblank, List.nil_append]

/-- A declaration is followed by what is written of each of its children in turn. -/
lemma written_blocksFrom (o : Outline) (levels depth id : Nat) (hid : id < o.size) :
    ∃ inner, written (o.blocksFrom (levels + 1) depth id) =
      id :: (o.shown id).flatMap fun child => written (o.blocksFrom levels inner child) := by
  have hflatMap : ∀ (ids : List Nat) (inner : Nat),
      written (ids.flatMap (o.blocksFrom levels inner)) =
        ids.flatMap fun child => written (o.blocksFrom levels inner child) :=
    fun ids inner => List.filterMap_flatMap ..
  obtain ⟨decl, hdecl⟩ : ∃ decl, o.get? id = some decl := ⟨_, Array.getElem?_eq_getElem hid⟩
  simp only [blocksFrom, shown, hdecl]
  cases decl.kind with
  | stub => exact ⟨depth, rfl⟩
  | library =>
      refine ⟨depth, congrArg (id :: ·) ?_⟩
      refine (written_separatedBlocks none _).trans ?_
      rw [List.flatMap_map]
      rfl
  | klass =>
      refine ⟨depth + 1, congrArg (id :: ·) ?_⟩
      refine (List.filterMap_append ..).trans ?_
      rw [show List.filterMap Block.id? [.closing depth] = [] from rfl, List.append_nil]
      exact hflatMap _ _
  | importDirective | member | function => exact ⟨depth + 1, congrArg (id :: ·) (hflatMap _ _)⟩

variable {o : Outline}

lemma shown_sublist (o : Outline) (id : Nat) : (o.shown id).Sublist (o.children id) := by
  unfold shown children
  cases o.get? id with
  | none => exact .slnil
  | some decl =>
      dsimp only
      split_ifs
      · exact List.nil_sublist _
      · exact .refl _

namespace IsForest

variable (h : o.IsForest) {id child a b : Nat}
include h

lemma parent?_of_shown (hchild : child ∈ o.shown id) : o.parent? child = some id :=
  h.mem_children.mp ((o.shown_sublist id).subset hchild)

lemma lt_of_shown (hchild : child ∈ o.shown id) : id < child ∧ child < o.size := by
  have hparent := h.parent?_of_shown hchild
  obtain ⟨decl, hdecl, -⟩ := Option.bind_eq_some_iff.mp hparent
  exact ⟨h.parent_lt hparent, (Array.getElem?_eq_some_iff.mp hdecl).1⟩

lemma le_of_reaches (hab : o.Reaches a b) : a ≤ b := by
  induction hab with
  | refl => exact Nat.le_refl a
  | tail _ hstep ih => exact ih.trans (h.lt_of_shown hstep).1.le

/-- Of two declarations that one stands below, one stands below the other. -/
lemma reaches_of_le (ha : o.Reaches a id) (hb : o.Reaches b id) (hle : a ≤ b) : o.Reaches a b := by
  induction ha with
  | refl =>
      obtain rfl : a = b := Nat.le_antisymm hle (h.le_of_reaches hb)
      exact .refl
  | tail ha hstep ih =>
      rcases hb.cases_tail with rfl | ⟨p, hp, hstep'⟩
      · exact ha.tail hstep
      · obtain rfl := Option.some.inj
          ((h.parent?_of_shown hstep).symm.trans (h.parent?_of_shown hstep'))
        exact ih hp

/-- Two children of one declaration do not stand below each other. -/
lemma eq_of_reaches (ha : a ∈ o.shown id) (hb : b ∈ o.shown id) (hab : o.Reaches a b) : a = b := by
  rcases hab.cases_tail with rfl | ⟨p, hp, hstep⟩
  · rfl
  · obtain rfl := Option.some.inj
      ((h.parent?_of_shown hb).symm.trans (h.parent?_of_shown hstep))
    have := h.le_of_reaches hp
    have := (h.lt_of_shown ha).1
    omega

/-- **What holds of all that is written of a declaration** if it passes from the children to the
declaration.  The bound on the levels is never met: each level down the numbers grow. -/
lemma written_induction {P : Nat → List Nat → Prop}
    (hnode : ∀ id (below : Nat → List Nat), id < o.size →
      (∀ child ∈ o.shown id, P child (below child)) → P id (id :: (o.shown id).flatMap below)) :
    ∀ levels depth id, id < o.size → o.size < levels + id →
      P id (written (o.blocksFrom levels depth id))
  | 0, _, id, hid, hlevels => by omega
  | levels + 1, depth, id, hid, hlevels => by
      obtain ⟨inner, hwritten⟩ := written_blocksFrom o levels depth id hid
      rw [hwritten]
      refine hnode id _ hid fun child hchild => ?_
      obtain ⟨hlt, hsize⟩ := h.lt_of_shown hchild
      exact written_induction hnode levels inner child hsize (by omega)

/-- What is written is in pre-order. -/
lemma preorder_blocks (hid : id < o.size) : o.Preorder id (written (o.blocks id)) := by
  refine h.written_induction (fun id below _ hbelow => ?_) _ 0 id hid (by omega)
  rw [List.flatMap_def]
  refine .node (List.forall₂_map_right_iff.mpr (List.forall₂_same.mpr hbelow))

/-- What is written is the declaration and what stands below it. -/
lemma mem_written (hid : id < o.size) {other : Nat} :
    other ∈ written (o.blocks id) ↔ o.Reaches id other := by
  refine h.written_induction (P := fun id ids => ∀ other, other ∈ ids ↔ o.Reaches id other)
    (fun id below _ hbelow other => ?_) _ 0 id hid (by omega) other
  refine Iff.trans ?_ Relation.ReflTransGen.cases_head_iff.symm
  rw [List.mem_cons, List.mem_flatMap, eq_comm]
  exact or_congr_right (exists_congr fun child => and_congr_right fun hchild =>
    hbelow child hchild other)

/-- **Nothing is written twice.** -/
lemma written_nodup (hid : id < o.size) : (written (o.blocks id)).Nodup := by
  refine (h.written_induction (P := fun id ids => ids.Nodup ∧ ∀ other ∈ ids, o.Reaches id other)
    (fun id below _ hbelow => ⟨?_, ?_⟩) _ 0 id hid (by omega)).1
  · refine List.nodup_cons.mpr ⟨fun hself => ?_, List.nodup_flatMap.mpr ⟨fun child hchild =>
      (hbelow child hchild).1, ?_⟩⟩
    · obtain ⟨child, hchild, hself⟩ := List.mem_flatMap.mp hself
      have := (h.lt_of_shown hchild).1
      have := h.le_of_reaches ((hbelow child hchild).2 id hself)
      omega
    · refine ((h.children_nodup id).sublist (o.shown_sublist id)).imp_of_mem
        fun {a b} ha hb hne => List.disjoint_left.mpr fun other hother hother' => ?_
      have hreach := (hbelow a ha).2 other hother
      have hreach' := (hbelow b hb).2 other hother'
      rcases Nat.le_total a b with hle | hle
      · exact hne (h.eq_of_reaches ha hb (h.reaches_of_le hreach hreach' hle))
      · exact hne (h.eq_of_reaches hb ha (h.reaches_of_le hreach' hreach hle)).symm
  · refine List.forall_mem_cons.mpr ⟨.refl, fun other hother => ?_⟩
    obtain ⟨child, hchild, hother⟩ := List.mem_flatMap.mp hother
    exact .head hchild ((hbelow child hchild).2 other hother)

end IsForest

/-- **The outline of a history** in which parents are added first.  A declaration with a parent is
linked from it once and from nowhere else, its number is larger, and a root is linked from nowhere.
Adding at a place puts the new declaration there among the children of its parent, or last, and
keeps the order of the others.  The text of a declaration is that of its blocks; they hold, in
pre-order, each declaration that is reached without passing below a stub once, with its
documentation, the lines above it and its header, and else the ends of classes and blank lines. -/
theorem after_forest (history : List OutlineStep) (hparents : ParentsFirst history) :
    let o := after history
    o.IsForest ∧
    (∀ root ∈ o.roots, ∀ p, root ∉ o.children p) ∧
    (∀ decl parent index, parent < o.size → ∀ id,
      (o.step (.addAt decl parent index)).children id =
        if id = parent then
          (o.children parent).insertIdx (min index (o.children parent).length) o.size
        else o.children id) ∧
    ∀ root < o.size,
      o.render root = Passage.joined ((o.blocks root).flatMap o.blockPassages) ∧
      o.Preorder root (written (o.blocks root)) ∧ (written (o.blocks root)).Nodup ∧
      ∀ id, id ∈ written (o.blocks root) ↔ o.Reaches root id := by
  intro o
  have h : o.IsForest := isForest_after history hparents
  refine ⟨h, fun root hroot p hmem => ?_, fun decl parent index hparent id =>
    children_step_addAt decl index hparent id, fun root hroot =>
      ⟨?_, h.preorder_blocks hroot, h.written_nodup hroot, fun id => h.mem_written hroot⟩⟩
  · simpa [mem_roots hroot] using h.mem_children.mp hmem
  · rw [blocks, flatMap_blocksFrom, joined_passagesFrom]
    rfl

/-- A library with a class between two imports, one of which is put before the class afterwards.
The class has a stub. -/
theorem after_forest_class :
    let history : List OutlineStep := [
      .add ⟨.library, "library m;", ["@JS()"], [], none, []⟩ none,
      .add ⟨.importDirective, "import 'a.dart';", [], [], none, []⟩ (some 0),
      .add ⟨.klass, "class A", ["@JS()"], ["An interface."], none, []⟩ (some 0),
      .addAt ⟨.importDirective, "import 'b.dart';", [], [], none, []⟩ 0 1,
      .add ⟨.stub, "external num get my-prop;", [], [], none, []⟩ (some 2),
      .setHeader 2 "class B"]
    let o := after history
    ParentsFirst history ∧ o.IsForest ∧ o.children 0 = [1, 3, 2] ∧ o.children 2 = [4] ∧
      o.Preorder 0 [0, 1, 3, 2, 4] ∧ [0, 1, 3, 2, 4].Nodup ∧ ∀ id, id ≤ 4 → o.Reaches 0 id := by
  intro history o
  have hparents : ParentsFirst history := by decide
  obtain ⟨hforest, -, -, htext⟩ := after_forest history hparents
  have hwritten : written (o.blocks 0) = [0, 1, 3, 2, 4] := by decide
  obtain ⟨-, hpreorder, hnodup, hmem⟩ := htext 0 (by decide)
  rw [hwritten] at hpreorder hnodup
  refine ⟨hparents, hforest, by decide, by decide, hpreorder, hnodup, fun id hid => ?_⟩
  exact (hmem id).mp (hwritten ▸ by simp; omega)

end Outline

end Interop
