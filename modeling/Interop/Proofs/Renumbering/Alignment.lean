import Interop.Proofs.Blocks
import Interop.Proofs.Closure
import Mathlib.Logic.Equiv.Defs

/-!
# Tables of the same files in another order

Two runs over the same files in different orders register the same blocks in different places.  So
the symbols of one table are those of the other with other numbers, and those of each file come in
the same order.  Looking a name up gives corresponding symbols, as long as no two files declare types
of one name, since then no order between files matters.

* `SymbolTable.Aligned` — tables of the same blocks; `SymbolTable.align` — how symbols correspond.
* `Renumbering.Declared` — tables whose files correspond.
* **`Renumbering.Declared.lookup`** — a name of a type leads to corresponding symbols.
-/

namespace Interop

open Source

namespace SymbolTable

/-! ## Blocks in other places -/

/-- The number of the first symbol of a file. -/
def firstOf (t : SymbolTable) (file : Nat) : Nat :=
  ((t.ofFile file).head?.map (·.1)).getD 0

/-- The number in another table of the symbol that stands where a symbol stands in its file. -/
def align (σ : Nat → Nat) (t t' : SymbolTable) (id : Nat) : Nat :=
  match t.get? id with
  | none => id
  | some s => t'.firstOf (σ s.file) + (id - t.firstOf s.file)

/-- **Tables of the same blocks**, up to the numbers of files.  Symbols have no types yet, and
namespaces are in the files of what they contain. -/
structure Aligned (σ : Nat → Nat) (t t' : SymbolTable) : Prop where
  size : t'.size = t.size
  block : ∀ file, ∃ (block : SymbolTable) (first first' : Nat),
    t.ofFile file = block.moved first file ∧ t'.ofFile (σ file) = block.moved first' (σ file)
  parent : ∀ id s p, t.get? id = some s → s.parent = some p →
    ∃ q, t.get? p = some q ∧ q.file = s.file
  bare : ∀ id s, t.get? id = some s → s.bare = s

variable {σ : Nat → Nat} {t t' block : SymbolTable} {file first first' : Nat}

lemma mem_moved {entry : Nat × Symbol} : entry ∈ block.moved first file ↔
    ∃ k s, block.get? k = some s ∧ entry = (first + k, s.inFile file (first + ·)) := by
  constructor
  · intro h
    obtain ⟨⟨k, s⟩, hmem, rfl⟩ := List.mem_map.mp h
    exact ⟨k, s, get?_of_mem_toList hmem, rfl⟩
  · rintro ⟨k, s, hs, rfl⟩
    exact List.mem_map.mpr ⟨(k, s), mem_toList hs, rfl⟩

/-- A block begins with its first symbol. -/
lemma firstOf_eq (h : t.ofFile file = block.moved first file) {k : Nat} {s : Symbol}
    (hk : block.get? k = some s) : t.firstOf file = first := by
  have hhead : block.toList.head? = block.symbols.toList.head?.map (0, ·) := by
    cases hlist : block.symbols.toList <;> simp [toList, hlist]
  have hsome : block.symbols.toList.head? ≠ none := by
    rw [Ne, List.head?_eq_none_iff]
    intro hempty
    have hmem := mem_toList hk
    simp [toList, hempty] at hmem
  obtain ⟨u, hu⟩ := Option.ne_none_iff_exists'.mp hsome
  rw [firstOf, h, moved, List.head?_map, hhead, hu]
  rfl

lemma align_add (h : t.ofFile file = block.moved first file)
    (h' : t'.ofFile (σ file) = block.moved first' (σ file)) {k : Nat} {s : Symbol}
    (hk : block.get? k = some s) : align σ t t' (first + k) = first' + k := by
  have hmem : (first + k, s.inFile file (first + ·)) ∈ t.ofFile file :=
    h ▸ mem_moved.mpr ⟨k, s, hk, rfl⟩
  obtain ⟨hget, -⟩ := (mem_ofFile t file).mp hmem
  have hfile : (s.inFile file (first + ·)).file = file := rfl
  simp only [align, hget, hfile, firstOf_eq h hk, firstOf_eq h' hk, Nat.add_sub_cancel_left]

/-- **The symbols of a file correspond**, in the same order. -/
lemma Aligned.ofFile (h : Aligned σ t t') (file : Nat) : t'.ofFile (σ file) =
    (t.ofFile file).map fun entry =>
      (align σ t t' entry.1, entry.2.inFile (σ file) (align σ t t')) := by
  obtain ⟨block, first, first', ht, ht'⟩ := h.block file
  have hmove : (t.ofFile file).map (fun entry =>
      (align σ t t' entry.1, entry.2.inFile (σ file) (align σ t t'))) =
      block.toList.map fun entry => (align σ t t' (first + entry.1),
        (entry.2.inFile file (first + ·)).inFile (σ file) (align σ t t')) := by
    rw [ht, SymbolTable.moved, List.map_map]
    rfl
  rw [hmove, ht', SymbolTable.moved]
  refine List.map_congr_left fun entry hentry => ?_
  have hk := get?_of_mem_toList hentry
  rw [align_add ht ht' hk]
  refine congrArg (Prod.mk _) ?_
  have hmem : (first + entry.1, entry.2.inFile file (first + ·)) ∈ t.ofFile file :=
    ht ▸ mem_moved.mpr ⟨_, _, hk, rfl⟩
  have hparent : entry.2.parent.map (first' + ·) =
      (entry.2.parent.map (first + ·)).map (align σ t t') := by
    cases hp : entry.2.parent with
    | none => rfl
    | some p =>
        -- the namespace around the symbol is in the same block
        have hp' : (entry.2.inFile file (first + ·)).parent = some (first + p) := by
          rw [Symbol.inFile, hp]
          rfl
        obtain ⟨q, hq, hqfile⟩ := h.parent _ _ _ ((mem_ofFile t file).mp hmem).1 hp'
        have hqmem : (first + p, q) ∈ t.ofFile file := (mem_ofFile t file).mpr ⟨hq, hqfile⟩
        obtain ⟨k, u, hu, he⟩ := mem_moved.mp (ht ▸ hqmem)
        obtain rfl : p = k := Nat.add_left_cancel (Prod.mk.inj he).1
        exact congrArg some (align_add ht ht' hu).symm
  simp only [Symbol.inFile, hparent]

lemma Aligned.get?_some (h : Aligned σ t t') {id : Nat} {s : Symbol} (hs : t.get? id = some s) :
    t'.get? (align σ t t' id) = some (s.inFile (σ s.file) (align σ t t')) := by
  have hmem : (id, s) ∈ t.ofFile s.file := (mem_ofFile t _).mpr ⟨hs, rfl⟩
  have hmem' := List.mem_map_of_mem (f := fun entry : Nat × Symbol =>
    (align σ t t' entry.1, entry.2.inFile (σ s.file) (align σ t t'))) hmem
  rw [← h.ofFile] at hmem'
  exact ((mem_ofFile t' _).mp hmem').1

lemma Aligned.align_none (h : Aligned σ t t') {id : Nat} (hid : t.get? id = none) :
    align σ t t' id = id ∧ t'.get? id = none := by
  refine ⟨by simp only [align, hid], ?_⟩
  have hsize : t'.size ≤ id := h.size ▸ Array.getElem?_eq_none_iff.mp hid
  exact Array.getElem?_eq_none hsize

/-- Different symbols correspond to different ones. -/
lemma Aligned.injective (h : Aligned σ t t') (hσ : Function.Injective σ) :
    Function.Injective (align σ t t') := by
  intro a b hab
  cases ha : t.get? a with
  | none =>
      obtain ⟨hsame, hnone⟩ := h.align_none ha
      cases hb : t.get? b with
      | none => rw [← hsame, hab, (h.align_none hb).1]
      | some u =>
          rw [← hsame, hab, h.get?_some hb] at hnone
          cases hnone
  | some s =>
      have hs := h.get?_some ha
      cases hb : t.get? b with
      | none =>
          obtain ⟨hsame, hnone⟩ := h.align_none hb
          rw [hab, hsame, hnone] at hs
          cases hs
      | some u =>
          rw [hab, h.get?_some hb] at hs
          have hfile : u.file = s.file := hσ (congrArg Symbol.file (Option.some.inj hs))
          obtain ⟨block, first, first', ht, ht'⟩ := h.block s.file
          have hmem : (a, s) ∈ t.ofFile s.file := (mem_ofFile t _).mpr ⟨ha, rfl⟩
          have hmem' : (b, u) ∈ t.ofFile s.file := (mem_ofFile t _).mpr ⟨hb, hfile⟩
          obtain ⟨k, v, hk, he⟩ := mem_moved.mp (ht ▸ hmem)
          obtain ⟨l, w, hl, he'⟩ := mem_moved.mp (ht ▸ hmem')
          obtain ⟨rfl, -⟩ := Prod.mk.inj he
          obtain ⟨rfl, -⟩ := Prod.mk.inj he'
          rw [align_add ht ht' hk, align_add ht ht' hl] at hab
          omega

/-- The numbers of one table in the other. -/
def Aligned.renumbering (h : Aligned σ t t') (hσ : Function.Injective σ)
    (hambient : σ ambientFile = ambientFile) : Renumbering :=
  ⟨align σ t t', σ, σ, h.injective hσ, hσ, hσ, hambient⟩

end SymbolTable

/-! ## Tables whose files correspond -/

/-- **Tables whose files correspond**, symbol by symbol. -/
structure Renumbering.Declared (ρ : Renumbering) (t t' : SymbolTable) : Prop where
  size : t'.size = t.size
  get? : ∀ id, t'.get? (ρ.symbol id) = (t.get? id).map (Symbol.renumber ρ)
  ofFile : ∀ file, t'.ofFile (ρ.file file) =
    (t.ofFile file).map fun entry => (ρ.symbol entry.1, entry.2.renumber ρ)

/-- Tables of the same blocks are such tables. -/
lemma SymbolTable.Aligned.declared {σ : Nat → Nat} {t t' : SymbolTable} (h : Aligned σ t t')
    (hσ : Function.Injective σ) (hambient : σ ambientFile = ambientFile) :
    (h.renumbering hσ hambient).Declared t t' := by
  -- without types there is nothing else to renumber
  have hrenumber : ∀ id s, t.get? id = some s →
      s.inFile (σ s.file) (align σ t t') = s.renumber (h.renumbering hσ hambient) := by
    intro id s hs
    rw [← h.bare id s hs]
    rfl
  refine ⟨h.size, fun id => ?_, fun file => ?_⟩
  · cases hid : t.get? id with
    | none =>
        obtain ⟨hsame, hnone⟩ := h.align_none hid
        show t'.get? (align σ t t' id) = none
        rw [hsame, hnone]
    | some s =>
        show t'.get? (align σ t t' id) = some _
        rw [h.get?_some hid, hrenumber id s hid]
  · show t'.ofFile (σ file) = _
    rw [h.ofFile]
    refine List.map_congr_left fun entry hentry => ?_
    obtain ⟨hget, hfile⟩ := (mem_ofFile t file).mp hentry
    rw [← hfile, hrenumber _ _ hget]
    rfl

namespace SymbolTable

/-! ## Looking up names -/

/-- **No two files declare types of one name.** -/
def TypesApart (t : SymbolTable) : Prop :=
  ∀ id other s u, t.get? id = some s → t.get? other = some u → s.kind.isType = true →
    u.kind.isType = true → s.isAmbient = false → u.isAmbient = false →
      s.scopedName = u.scopedName → s.file = u.file

variable {t : SymbolTable} {name : List String} {accept : SymbolKind → Bool}

/-- The first symbol of a name in a file. -/
def firstIn (t : SymbolTable) (name : List String) (accept : SymbolKind → Bool) (file : Nat) :
    Option (Nat × Symbol) :=
  (t.ofFile file).find? fun entry => entry.2.scopedName == name && accept entry.2.kind

lemma find?_matching (t : SymbolTable) (name : List String) (accept : SymbolKind → Bool)
    (file : Nat) : ((t.matching name accept).find? fun entry => entry.2.file == file) =
      t.firstIn name accept file := by
  rw [matching, firstIn, ofFile, ← List.head?_filter, ← List.head?_filter, List.filter_filter,
    List.filter_filter]
  simp only [Bool.and_comm]

/-- **Where a name leads** if no other file than one declares it: to the asking file, to that file
or to the platform. -/
lemma lookup_eq {only : Nat} (honly : ∀ id s, t.get? id = some s → s.scopedName = name →
      accept s.kind = true → s.isAmbient = false → s.file = only)
    (hne : only ≠ ambientFile) (file : Nat) : t.lookup name file accept =
      ((t.firstIn name accept file).or ((t.firstIn name accept only).or
        (t.firstIn name accept ambientFile))).map (·.1) := by
  have hfile : ∀ entry ∈ t.matching name accept,
      entry.2.isAmbient = false → entry.2.file = only := by
    intro entry hentry hambient
    obtain ⟨hmem, hmatch⟩ := List.mem_filter.mp hentry
    simp only [Bool.and_eq_true, beq_iff_eq] at hmatch
    exact honly _ _ (get?_of_mem_toList hmem) hmatch.1 hmatch.2 hambient
  have hothers : ((t.matching name accept).find? fun entry => !entry.2.isAmbient) =
      t.firstIn name accept only := by
    rw [← find?_matching, ← List.head?_filter, ← List.head?_filter]
    refine congrArg List.head? (List.filter_congr fun entry hentry => ?_)
    cases hambient : entry.2.isAmbient with
    | false => simp [hfile entry hentry hambient]
    | true =>
        have hplatform : entry.2.file = ambientFile := beq_iff_eq.mp hambient
        simp [hplatform, hne.symm]
  have hplatform : t.firstIn name accept only = none →
      (t.matching name accept).head? = t.firstIn name accept ambientFile := by
    intro hnone
    rw [← hothers, List.find?_eq_none] at hnone
    rw [← find?_matching, ← List.head?_filter, List.filter_eq_self.mpr]
    exact fun entry hentry => by simpa [Symbol.isAmbient] using hnone entry hentry
  have hor : ∀ a b : Option (Nat × Symbol), (a <|> b) = a.or b := fun a b => by cases a <;> rfl
  simp only [lookup, hor, find?_matching, hothers]
  cases hfirst : t.firstIn name accept only with
  | none => rw [hplatform hfirst]
  | some entry => rfl

end SymbolTable

namespace Renumbering.Declared

variable {ρ : Renumbering} {t t' : SymbolTable} (h : ρ.Declared t t')
include h

lemma children (file : Nat) (parent : Option Nat) :
    t'.children (ρ.file file) (parent.map ρ.symbol) = (t.children file parent).map ρ.symbol := by
  have hsplit : ∀ (u : SymbolTable) (file : Nat) (parent : Option Nat), u.children file parent =
      ((u.ofFile file).filter fun entry => entry.2.parent == parent).map (·.1) := by
    intro u file parent
    rw [SymbolTable.children, SymbolTable.ofFile, List.filter_filter]
    simp only [Bool.and_comm]
  have hparent : ∀ s : Symbol, ((s.renumber ρ).parent == parent.map ρ.symbol) =
      (s.parent == parent) := by
    intro s
    rw [Bool.eq_iff_iff, beq_iff_eq, beq_iff_eq]
    exact (Option.map_injective ρ.symbol_injective).eq_iff
  rw [hsplit, hsplit, h.ofFile, List.filter_map, List.map_map, List.map_map]
  simp only [Function.comp_def, hparent]

lemma firstIn (name : List String) (accept : SymbolKind → Bool) (file : Nat) :
    t'.firstIn name accept (ρ.file file) = (t.firstIn name accept file).map
      fun entry => (ρ.symbol entry.1, entry.2.renumber ρ) := by
  simp only [SymbolTable.firstIn, h.ofFile, List.find?_map, Function.comp_def,
    Symbol.scopedName_renumber]
  rfl

/-- **A name of a type leads to corresponding symbols.** -/
lemma lookup (hapart : t.TypesApart) (hsurjective : Function.Surjective ρ.file)
    (name : List String) (file : Nat) : t'.lookup name (ρ.file file) SymbolKind.isType =
      (t.lookup name file SymbolKind.isType).map ρ.symbol := by
  obtain ⟨only, hne, honly⟩ : ∃ only, only ≠ ambientFile ∧ ∀ id s, t.get? id = some s →
      s.scopedName = name → s.kind.isType = true → s.isAmbient = false → s.file = only := by
    by_cases hsome : ∃ id s, t.get? id = some s ∧ s.scopedName = name ∧ s.kind.isType = true ∧
        s.isAmbient = false
    · obtain ⟨id, s, hs, hname, hkind, hambient⟩ := hsome
      refine ⟨s.file, fun he => ?_, fun other u hu hname' hkind' hambient' => ?_⟩
      · rw [Symbol.isAmbient, he] at hambient
        simp at hambient
      · exact hapart other id u s hu hs hkind' hkind hambient' hambient (hname'.trans hname.symm)
    · refine ⟨0, by decide, fun id s hs hname hkind hambient => ?_⟩
      exact absurd ⟨id, s, hs, hname, hkind, hambient⟩ hsome
  have honly' : ∀ id s, t'.get? id = some s → s.scopedName = name → s.kind.isType = true →
      s.isAmbient = false → s.file = ρ.file only := by
    intro id s hs hname hkind hambient
    obtain ⟨file, hfile⟩ := hsurjective s.file
    have hmem : (id, s) ∈ t'.ofFile (ρ.file file) := (t'.mem_ofFile _).mpr ⟨hs, hfile.symm⟩
    rw [h.ofFile] at hmem
    obtain ⟨⟨other, u⟩, hu, he⟩ := List.mem_map.mp hmem
    obtain ⟨-, rfl⟩ := Prod.mk.inj he
    rw [Symbol.scopedName_renumber] at hname
    rw [Symbol.isAmbient_renumber] at hambient
    exact congrArg ρ.file (honly other u ((t.mem_ofFile _).mp hu).1 hname hkind hambient)
  have hne' : ρ.file only ≠ ambientFile := fun he =>
    hne (ρ.file_injective (he.trans ρ.ambient.symm))
  have hplatform := h.firstIn name SymbolKind.isType ambientFile
  rw [ρ.ambient] at hplatform
  rw [SymbolTable.lookup_eq honly hne, SymbolTable.lookup_eq honly' hne', h.firstIn, h.firstIn,
    hplatform, ← Option.map_or, ← Option.map_or, Option.map_map, Option.map_map]
  rfl

end Renumbering.Declared

end Interop
