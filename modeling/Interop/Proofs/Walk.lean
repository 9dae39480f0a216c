import Interop.Proofs.Filling

/-!
# The walk through the declarations of a file

The declarations of a file are written namespace by namespace: those at the top first, and after
each namespace what stands in it.  A namespace is registered before its contents, so the walk ends
within as many levels as there are symbols, passes every symbol of the file, and none twice.

* `SymbolTable.scopeWalk`, `SymbolTable.fileWalk` — the symbols in the order of the walk.
* `SymbolTable.Rooted` — parents come first, and are namespaces of the same file.
* `SymbolTable.Within` — a symbol stands inside another, at any depth.
* **`SymbolTable.Rooted.fileWalk_nodup`**, **`SymbolTable.Rooted.mem_fileWalk`** — the walk passes
  the symbols of the file, each once.
-/

namespace Interop

namespace SymbolTable

variable {t : SymbolTable} {file : Nat}

/-! ## The walk -/

/-- Whether a symbol is a namespace. -/
def isNameSpace (t : SymbolTable) (id : Nat) : Bool :=
  ((t.get? id).map (·.kind)) == some .nameSpace

/-- The symbols of a file that stand in a namespace, or at the top of the file, in the order in
which they are written: each namespace is followed by what stands in it. -/
def scopeWalk (t : SymbolTable) : (levels : Nat) → (file : Nat) → (parent : Option Nat) → List Nat
  | 0, _, _ => []
  | levels + 1, file, parent => (t.children file parent).flatMap fun id =>
    id :: if t.isNameSpace id then t.scopeWalk levels file (some id) else []

/-- The symbols of a file in the order in which they are written. -/
def fileWalk (t : SymbolTable) (file : Nat) : List Nat :=
  t.scopeWalk (t.size + 1) file none

lemma isNameSpace_iff {id : Nat} :
    t.isNameSpace id = true ↔ ∃ s, t.get? id = some s ∧ s.kind = .nameSpace := by
  simp [isNameSpace]

lemma mem_children {parent : Option Nat} {id : Nat} :
    id ∈ t.children file parent ↔ ∃ s, t.get? id = some s ∧ s.file = file ∧ s.parent = parent := by
  constructor
  · intro h
    obtain ⟨⟨i, s⟩, hmem, rfl⟩ := List.mem_map.mp h
    obtain ⟨hlist, hs⟩ := List.mem_filter.mp hmem
    simp only [Bool.and_eq_true, beq_iff_eq] at hs
    exact ⟨s, get?_of_mem_toList hlist, hs.1, hs.2⟩
  · rintro ⟨s, hs, hfile, hparent⟩
    refine List.mem_map.mpr ⟨(id, s), List.mem_filter.mpr ⟨mem_toList hs, ?_⟩, rfl⟩
    simp [hfile, hparent]

lemma children_nodup (t : SymbolTable) (file : Nat) (parent : Option Nat) :
    (t.children file parent).Nodup := by
  have hids : t.toList.map (·.1) = List.range t.size := by
    simp [toList, Function.comp_def, size, List.range_eq_range']
  refine List.Nodup.sublist (List.filter_sublist.map _) ?_
  rw [hids]
  exact List.nodup_range

/-- What the walk passes next: a child, or something in a child that is a namespace. -/
lemma mem_scopeWalk_succ {levels : Nat} {parent : Option Nat} {id : Nat} :
    id ∈ t.scopeWalk (levels + 1) file parent ↔ ∃ child ∈ t.children file parent,
      id = child ∨ (t.isNameSpace child = true ∧ id ∈ t.scopeWalk levels file (some child)) := by
  simp only [scopeWalk, List.mem_flatMap, List.mem_cons]
  refine exists_congr fun child => and_congr_right fun _ => or_congr_right ?_
  split_ifs with h <;> simp [h]

/-- The walk stays in the file. -/
lemma file_of_mem_scopeWalk : ∀ {levels : Nat} {parent : Option Nat} {id : Nat},
    id ∈ t.scopeWalk levels file parent → ∃ s, t.get? id = some s ∧ s.file = file
  | 0, _, _, hid => by cases hid
  | levels + 1, parent, id, hid => by
      obtain ⟨child, hchild, rfl | ⟨-, hid⟩⟩ := mem_scopeWalk_succ.mp hid
      · obtain ⟨s, hs, hfile, -⟩ := mem_children.mp hchild
        exact ⟨s, hs, hfile⟩
      · exact file_of_mem_scopeWalk hid

/-- What is passed is passed too when more levels are allowed. -/
lemma scopeWalk_mono : ∀ {levels more : Nat} {parent : Option Nat} {id : Nat}, levels ≤ more →
    id ∈ t.scopeWalk levels file parent → id ∈ t.scopeWalk more file parent
  | 0, _, _, _, _, hid => by cases hid
  | levels + 1, 0, _, _, hle, _ => by omega
  | levels + 1, more + 1, parent, id, hle, hid => by
      obtain ⟨child, hchild, hid⟩ := mem_scopeWalk_succ.mp hid
      exact mem_scopeWalk_succ.mpr
        ⟨child, hchild, hid.imp_right (And.imp_right (scopeWalk_mono (by omega)))⟩

/-- What stands in a namespace is passed one level below the namespace. -/
lemma mem_scopeWalk_child : ∀ {levels : Nat} {parent : Option Nat} {outer id : Nat},
    outer ∈ t.scopeWalk levels file parent → t.isNameSpace outer = true →
      id ∈ t.children file (some outer) → id ∈ t.scopeWalk (levels + 1) file parent
  | 0, _, _, _, houter, _, _ => by cases houter
  | levels + 1, parent, outer, id, houter, hspace, hid => by
      obtain ⟨child, hchild, rfl | ⟨hchildSpace, houter⟩⟩ := mem_scopeWalk_succ.mp houter
      · exact mem_scopeWalk_succ.mpr ⟨outer, hchild, Or.inr
          ⟨hspace, mem_scopeWalk_succ.mpr ⟨id, hid, Or.inl rfl⟩⟩⟩
      · exact mem_scopeWalk_succ.mpr ⟨child, hchild, Or.inr
          ⟨hchildSpace, mem_scopeWalk_child houter hspace hid⟩⟩

/-! ## Symbols inside one another -/

/-- Parents come first, and are namespaces of the same file. -/
def Rooted (t : SymbolTable) : Prop :=
  ∀ id s p, t.get? id = some s → s.parent = some p →
    p < id ∧ ∃ q, t.get? p = some q ∧ q.kind = .nameSpace ∧ q.file = s.file

/-- A symbol is another one, or stands inside it at any depth. -/
inductive Within (t : SymbolTable) (outer : Nat) : Nat → Prop
  | self : Within t outer outer
  | inside {id p : Nat} {s : Symbol} : t.get? id = some s → s.parent = some p → Within t outer p →
      Within t outer id

lemma Within.trans {a b c : Nat} (hab : t.Within a b) (hbc : t.Within b c) : t.Within a c := by
  induction hbc with
  | self => exact hab
  | inside hs hp _ ih => exact .inside hs hp ih

lemma within_of_mem_children {outer id : Nat} (h : id ∈ t.children file (some outer)) :
    t.Within outer id := by
  obtain ⟨s, hs, -, hparent⟩ := mem_children.mp h
  exact .inside hs hparent .self

/-- What the walk through a namespace passes stands inside something in the namespace. -/
lemma within_of_mem_scopeWalk : ∀ {levels : Nat} {parent : Option Nat} {id : Nat},
    id ∈ t.scopeWalk levels file parent → ∃ child ∈ t.children file parent, t.Within child id
  | 0, _, _, hid => by cases hid
  | levels + 1, parent, id, hid => by
      obtain ⟨child, hchild, rfl | ⟨-, hid⟩⟩ := mem_scopeWalk_succ.mp hid
      · exact ⟨id, hchild, .self⟩
      · obtain ⟨inner, hinner, hw⟩ := within_of_mem_scopeWalk hid
        exact ⟨child, hchild, (within_of_mem_children hinner).trans hw⟩

namespace Rooted

lemma le_of_within (h : t.Rooted) {outer id : Nat} (hw : t.Within outer id) : outer ≤ id := by
  induction hw with
  | self => exact Nat.le_refl _
  | inside hs hp _ ih =>
      have := (h _ _ _ hs hp).1
      omega

/-- What a symbol stands in is one inside the other. -/
lemma within_of_le (h : t.Rooted) {a b id : Nat} (ha : t.Within a id) (hb : t.Within b id)
    (hle : a ≤ b) : t.Within a b := by
  induction ha with
  | self =>
      obtain rfl : a = b := Nat.le_antisymm hle (h.le_of_within hb)
      exact .self
  | inside hs hp ha ih =>
      cases hb with
      | self => exact .inside hs hp ha
      | inside hs' hp' hb =>
          obtain rfl := Option.some.inj (hs.symm.trans hs')
          obtain rfl := Option.some.inj (hp.symm.trans hp')
          exact ih hb

/-- Siblings do not stand inside one another. -/
lemma eq_of_within (h : t.Rooted) {parent : Option Nat} {a b : Nat}
    (ha : a ∈ t.children file parent) (hb : b ∈ t.children file parent) (hw : t.Within a b) :
    a = b := by
  obtain ⟨s, hs, -, hsparent⟩ := mem_children.mp ha
  obtain ⟨u, hu, -, huparent⟩ := mem_children.mp hb
  cases hw with
  | self => rfl
  | inside hu' hp hw =>
      obtain rfl := Option.some.inj (hu.symm.trans hu')
      have hlt := (h a s _ hs (hsparent.trans (huparent.symm.trans hp))).1
      have hle := h.le_of_within hw
      omega

/-! ## Each symbol once -/

/-- **No symbol is passed twice.** -/
lemma scopeWalk_nodup (h : t.Rooted) : ∀ (levels : Nat) (parent : Option Nat),
    (t.scopeWalk levels file parent).Nodup
  | 0, _ => List.nodup_nil
  | levels + 1, parent => by
      have hwithin : ∀ {child id : Nat}, id ∈ child :: (if t.isNameSpace child then
          t.scopeWalk levels file (some child) else []) → t.Within child id := by
        intro child id hid
        rcases List.mem_cons.mp hid with rfl | hid
        · exact .self
        · split_ifs at hid
          · obtain ⟨inner, hinner, hw⟩ := within_of_mem_scopeWalk hid
            exact (within_of_mem_children hinner).trans hw
          · cases hid
      refine List.nodup_flatMap.mpr ⟨fun child _ => ?_, ?_⟩
      · split_ifs
        · refine List.nodup_cons.mpr ⟨fun hself => ?_, scopeWalk_nodup h levels (some child)⟩
          -- what stands in a namespace comes after it
          obtain ⟨inner, hinner, hw⟩ := within_of_mem_scopeWalk hself
          obtain ⟨s, hs, -, hparent⟩ := mem_children.mp hinner
          have hlt := (h inner s child hs hparent).1
          have hle := h.le_of_within hw
          omega
        · exact List.nodup_singleton child
      · refine (t.children_nodup file parent).imp_of_mem fun {a b} ha hb hne => ?_
        refine List.disjoint_left.mpr fun {id} hida hidb => ?_
        rcases Nat.le_total a b with hle | hle
        · exact hne (h.eq_of_within ha hb (h.within_of_le (hwithin hida) (hwithin hidb) hle))
        · exact hne (h.eq_of_within hb ha (h.within_of_le (hwithin hidb) (hwithin hida) hle)).symm

/-! ## Every symbol -/

/-- A symbol is passed within one level more than its number: all that it stands in comes before
it. -/
lemma mem_scopeWalk (h : t.Rooted) (id : Nat) : ∀ s, t.get? id = some s →
    id ∈ t.scopeWalk (id + 1) s.file none := by
  induction id using Nat.strongRecOn with
  | ind id ih =>
      intro s hs
      cases hparent : s.parent with
      | none =>
          exact mem_scopeWalk_succ.mpr ⟨id, mem_children.mpr ⟨s, hs, rfl, hparent⟩, Or.inl rfl⟩
      | some p =>
          obtain ⟨hlt, q, hq, hkind, hfile⟩ := h id s p hs hparent
          have hp := ih p hlt q hq
          rw [hfile] at hp
          refine scopeWalk_mono (Nat.succ_le_succ hlt) (mem_scopeWalk_child hp ?_ ?_)
          · exact isNameSpace_iff.mpr ⟨q, hq, hkind⟩
          · exact mem_children.mpr ⟨s, hs, rfl, hparent⟩

theorem fileWalk_nodup (h : t.Rooted) (file : Nat) : (t.fileWalk file).Nodup :=
  h.scopeWalk_nodup _ none

/-- **Every symbol of the file is passed**, and no other one. -/
theorem mem_fileWalk (h : t.Rooted) {id : Nat} :
    id ∈ t.fileWalk file ↔ ∃ s, t.get? id = some s ∧ s.file = file := by
  constructor
  · exact file_of_mem_scopeWalk
  · rintro ⟨s, hs, rfl⟩
    have := lt_size_of_get? hs
    exact scopeWalk_mono (by omega) (h.mem_scopeWalk id s hs)

end Rooted

end SymbolTable

end Interop
