import Interop.Generation.Library
import Mathlib.Data.List.Basic

/-!
# The root of a library

The text of a library is that of an outline, whose first declaration is the library itself.  Its
imports and its declarations are added below it one after another, and the members of a class below
the class.

* `Outline.below` — what stands directly below a declaration.
* **`below_libraryOutline`** — what stands below the root of a library.
-/

namespace Interop

/-- A declaration without its place among the others. -/
def OutputDecl.bare (d : OutputDecl) : OutputDecl :=
  { d with parent := none, children := [] }

namespace Outline

/-- The declarations directly below one, without their places. -/
def below (o : Outline) (id : Nat) : List OutputDecl :=
  (o.children id).filterMap fun child => (o.get? child).map OutputDecl.bare

/-- The first declaration is there, and so are its children. -/
def HasRoot (o : Outline) : Prop :=
  0 < o.size ∧ ∀ child ∈ o.children 0, child < o.size

lemma size_add (o : Outline) (decl : OutputDecl) (p : Nat) :
    (o.add decl (some p)).size = o.size + 1 := by
  simp [add, addWith, size]

lemma get?_add (o : Outline) (decl : OutputDecl) (p id : Nat) :
    ((o.add decl (some p)).get? id).map OutputDecl.bare =
      if id = o.size then some decl.bare else (o.get? id).map OutputDecl.bare := by
  have hlink : ((o.add decl (some p)).get? id).map OutputDecl.bare =
      ((o.decls.push { decl with parent := some p })[id]?).map OutputDecl.bare := by
    simp only [add, addWith, get?, Array.getElem?_modify]
    split_ifs
    · rw [Option.map_map]
      rfl
    · rfl
  have hsize : o.size = o.decls.size := rfl
  rw [hlink, Array.getElem?_push, hsize]
  by_cases hid : id = o.decls.size
  · rw [if_pos hid, if_pos hid]
    rfl
  · rw [if_neg hid, if_neg hid]
    rfl

lemma children_add (o : Outline) (decl : OutputDecl) (p : Nat) {id : Nat} (h : id < o.size) :
    (o.add decl (some p)).children id =
      if p = id then o.children id ++ [o.size] else o.children id := by
  have hne : id ≠ o.decls.size := Nat.ne_of_lt h
  have hget : o.decls[id]? = some o.decls[id] := Array.getElem?_eq_getElem h
  simp only [children, add, addWith, get?, Array.getElem?_modify, Array.getElem?_push, if_neg hne,
    hget, size]
  split_ifs <;> rfl

variable {o : Outline}

lemma HasRoot.add (h : o.HasRoot) (decl : OutputDecl) (p : Nat) :
    (o.add decl (some p)).HasRoot := by
  refine ⟨by rw [size_add]; omega, fun child hchild => ?_⟩
  rw [children_add o decl p h.1] at hchild
  rw [size_add]
  split_ifs at hchild
  · rcases List.mem_append.mp hchild with hchild | hchild
    · have := h.2 child hchild
      omega
    · rw [List.mem_singleton.mp hchild]
      omega
  · have := h.2 child hchild
    omega

/-- What is added at the root stands last below it, and what is added elsewhere does not. -/
lemma below_add (h : o.HasRoot) (decl : OutputDecl) (p : Nat) :
    (o.add decl (some p)).below 0 = if p = 0 then o.below 0 ++ [decl.bare] else o.below 0 := by
  have hold : (o.children 0).filterMap
        (fun child => ((o.add decl (some p)).get? child).map OutputDecl.bare) = o.below 0 := by
    refine List.filterMap_congr fun child hchild => ?_
    rw [get?_add, if_neg (Nat.ne_of_lt (h.2 child hchild))]
  rw [below, children_add o decl p h.1]
  split_ifs
  · rw [List.filterMap_append, hold]
    simp [get?_add]
  · exact hold

lemma addItem_root (h : o.HasRoot) (item : Item) :
    (o.addItem item 0).HasRoot ∧ (o.addItem item 0).below 0 = o.below 0 ++ [item.decl.bare] := by
  have hfold : ∀ (members : List OutputDecl) (b : Outline), b.HasRoot →
      (members.foldl (fun b decl => b.add decl (some o.size)) b).HasRoot ∧
        (members.foldl (fun b decl => b.add decl (some o.size)) b).below 0 = b.below 0 := by
    intro members
    induction members with
    | nil => intro b hb; exact ⟨hb, rfl⟩
    | cons decl rest ih =>
        intro b hb
        obtain ⟨hroot, hbelow⟩ := ih _ (hb.add decl o.size)
        refine ⟨hroot, hbelow.trans ?_⟩
        rw [below_add hb, if_neg (Nat.ne_of_gt h.1)]
  obtain ⟨hroot, hbelow⟩ := hfold item.members _ (h.add item.decl 0)
  exact ⟨hroot, hbelow.trans (by rw [below_add h, if_pos rfl])⟩

lemma foldl_addItem_root : ∀ (items : List Item) {o : Outline}, o.HasRoot →
    (items.foldl (fun o item => o.addItem item 0) o).below 0 =
      o.below 0 ++ items.map (·.decl.bare)
  | [], _, _ => by simp
  | item :: rest, o, h => by
      obtain ⟨hroot, hbelow⟩ := addItem_root h item
      rw [List.foldl_cons, foldl_addItem_root rest hroot, hbelow]
      simp

lemma foldl_import_root : ∀ (files : List String) {o : Outline}, o.HasRoot →
    (files.foldl (fun o file => o.add (.ofImport file) (some 0)) o).HasRoot ∧
      (files.foldl (fun o file => o.add (.ofImport file) (some 0)) o).below 0 =
        o.below 0 ++ files.map OutputDecl.ofImport
  | [], _, h => ⟨h, by simp⟩
  | file :: rest, o, h => by
      obtain ⟨hroot, hbelow⟩ := foldl_import_root rest (h.add (.ofImport file) 0)
      refine ⟨hroot, ?_⟩
      rw [List.foldl_cons, hbelow, below_add h, if_pos rfl, List.append_assoc]
      rfl

end Outline

/-- **Below the root of a library** stand its imports and then its declarations, in order, and
nothing else. -/
theorem below_libraryOutline (name : String) (imports : List String) (items : List Item) :
    (libraryOutline name imports items).below 0 =
      .ofImport "package:js/js.dart" :: imports.map (fun library => .ofImport (libraryFile library)) ++
        items.map (·.decl.bare) := by
  have hroot : (({} : Outline).add (.ofLibrary name) none).HasRoot := by
    refine ⟨Nat.zero_lt_one, fun child hchild => ?_⟩
    cases hchild
  obtain ⟨hopened, hbelow⟩ :=
    Outline.foldl_import_root ("package:js/js.dart" :: imports.map libraryFile) hroot
  rw [libraryOutline, Outline.foldl_addItem_root items hopened, hbelow]
  simp [Outline.below, Outline.children, Outline.add, Outline.addWith, Outline.get?,
    OutputDecl.ofLibrary, Function.comp_def]

end Interop
