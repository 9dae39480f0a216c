import Interop.Proofs.Nesting
import Mathlib.Algebra.GroupWithZero.Nat
import Mathlib.Data.List.Induction

/-!
# The symbols of a file stand together

The first pass goes through one file after another, so the symbols of a file form a block of the
table.  The block depends on the other files in nothing but the number of its first symbol: it is
what the file registers in a table of its own, moved behind the symbols that are there already.

* `SymbolTable.ofFile` — the symbols of a file, in order.
* `ReadFile.alone` — what a file registers in a table of its own.
* `declareAll_joins` — declaring a file adds its block to the table.
* **`declareFiles_blocks`** — the table of the first pass is made of blocks.
-/

namespace Interop

open Source

/-! ## Blocks -/

/-- A symbol of a file with another number, where symbols have other numbers. -/
def Symbol.inFile (file : Nat) (number : Nat → Nat) (s : Symbol) : Symbol :=
  { s with file, parent := s.parent.map number }

namespace SymbolTable

/-- The symbols of a file with their numbers, in order. -/
def ofFile (t : SymbolTable) (file : Nat) : List (Nat × Symbol) :=
  t.toList.filter fun entry => entry.2.file == file

/-- The symbols of a table with the numbers that they get in a file behind others. -/
def moved (t : SymbolTable) (first file : Nat) : List (Nat × Symbol) :=
  t.toList.map fun entry => (first + entry.1, entry.2.inFile file (first + ·))

/-- A table with the symbols of another one behind its own, in a file with a number. -/
def join (t : SymbolTable) (file : Nat) (block : SymbolTable) : SymbolTable :=
  ⟨t.symbols ++ block.symbols.map (Symbol.inFile file (t.size + ·))⟩

variable (t block : SymbolTable) (file : Nat)

lemma mem_ofFile {entry : Nat × Symbol} :
    entry ∈ t.ofFile file ↔ t.get? entry.1 = some entry.2 ∧ entry.2.file = file := by
  rw [ofFile, List.mem_filter, beq_iff_eq]
  exact and_congr_left fun _ => ⟨get?_of_mem_toList, mem_toList⟩

lemma size_join : (t.join file block).size = t.size + block.size := by
  simp [join, size]

/-- A new symbol goes to the end of the block. -/
lemma join_push (s : Symbol) : (t.join file block).push (s.inFile file (t.size + ·)) =
    t.join file (block.push s) := by
  simp only [join, push, Array.map_push, Array.append_push]

/-- Symbols of the block are changed in their new places. -/
lemma join_modify (id : Nat) {f : Symbol → Symbol}
    (hf : ∀ s : Symbol, f (s.inFile file (t.size + ·)) = (f s).inFile file (t.size + ·)) :
    (t.join file block).modify (t.size + id) f = t.join file (block.modify id f) := by
  refine congrArg SymbolTable.mk (Array.ext_getElem? fun i => ?_)
  simp only [join, modify, Array.getElem?_modify, Array.getElem?_append, Array.getElem?_map, size]
  by_cases hi : i < t.symbols.size
  · rw [if_pos hi, if_neg (by omega), if_pos hi]
  · have hcancel : t.symbols.size + id = i ↔ id = i - t.symbols.size := by omega
    simp only [if_neg hi, hcancel]
    split_ifs
    · rw [Option.map_map, Option.map_map]
      exact congrArg (Option.map · _) (funext hf)
    · rfl

/-- A block is added to its file. -/
lemma ofFile_join (other : Nat) : (t.join file block).ofFile other =
    t.ofFile other ++ if other = file then block.moved t.size file else [] := by
  have hsplit : (t.join file block).toList = t.toList ++ block.moved t.size file := by
    simp only [toList, join, moved, Array.toList_append, Array.toList_map, List.zipIdx_append,
      List.map_append, List.zipIdx_map, List.map_map, Nat.zero_add]
    refine congrArg _ ?_
    rw [show t.symbols.toList.length = 0 + t.size from (Nat.zero_add _).symm,
      List.zipIdx_eq_map_add, List.map_map]
    refine List.map_congr_left fun entry _ => ?_
    simp [Nat.add_comm]
  rw [ofFile, hsplit, List.filter_append]
  refine congrArg _ ?_
  split_ifs with h
  · rw [List.filter_eq_self]
    intro entry hentry
    obtain ⟨_, -, rfl⟩ := List.mem_map.mp hentry
    exact beq_iff_eq.mpr h.symm
  · rw [List.filter_eq_nil_iff]
    intro entry hentry
    obtain ⟨_, -, rfl⟩ := List.mem_map.mp hentry
    exact fun he => h (beq_iff_eq.mp he).symm

end SymbolTable

/-- What a file registers in a table of its own. -/
def ReadFile.alone (f : ReadFile) : Catalogue :=
  declareAll { f.place with file := 0 } ⟨.empty, []⟩ f.program.body

/-! ## One declaration -/

namespace Catalogue

/-- **A catalogue to which a file is added**, next to one in which the file stands alone. -/
structure Joins (module : String) (file : Nat) (start alone c : Catalogue) : Prop where
  table : c.table = start.table.join file alone.table
  own : ∀ path kind, path.segments.head? = some module →
    c.find? path kind = (alone.find? path kind).map (start.table.size + ·)
  others : ∀ path kind, path.segments.head? ≠ some module →
    c.find? path kind = start.find? path kind

/-- Places of a file among others, and alone. -/
structure Places (module : String) (file first : Nat) (place place' : Place) : Prop where
  inModule : place.module = module
  inModule_alone : place'.module = module
  inFile : place.file = file
  names : place.names = place'.names
  parent : place.parent = place'.parent.map (first + ·)

variable {module : String} {file : Nat} {start alone c : Catalogue} {place place' : Place}

lemma Places.path {first : Nat} (h : Places module file first place place') (name : String)
    (kind : SymbolKind) : place.path name kind = place'.path name kind := by
  rw [Place.path, Place.path, h.inModule, h.inModule_alone, h.names]

lemma Places.enter {first id id' : Nat} (h : Places module file first place place')
    (hid : id = first + id') (name : String) :
    Places module file first (place.enter id name) (place'.enter id' name) :=
  ⟨h.inModule, h.inModule_alone, h.inFile, congrArg (· ++ [name]) h.names, congrArg some hid⟩

/-- Other tables do not change what declarations lead to. -/
lemma Joins.withTable (h : Joins module file start alone c) {t t' : SymbolTable}
    (ht : t' = start.table.join file t) :
    Joins module file start { alone with table := t } { c with table := t' } :=
  ⟨ht, h.own, h.others⟩

lemma Joins.remember (h : Joins module file start alone c) {path : DeclPath}
    (hpath : path.segments.head? = some module) (kind : SymbolKind) (id : Nat) :
    Joins module file start (alone.remember path kind id)
      (c.remember path kind (start.table.size + id)) where
  table := h.table
  own q k hq := by
    rw [find?_remember, find?_remember]
    split_ifs
    · rfl
    · exact h.own q k hq
  others q k hq := by
    rw [find?_remember, if_neg, h.others q k hq]
    rintro he
    obtain ⟨rfl, -⟩ := Prod.mk.inj he
    exact hq hpath

/-- **One declaration does the same in both.** -/
lemma Joins.declare (h : Joins module file start alone c)
    (hplace : Places module file start.table.size place place') (name : String) (kind : SymbolKind)
    (span : Span) :
    Joins module file start (alone.declare place' name kind span).1
        (c.declare place name kind span).1 ∧
      (c.declare place name kind span).2 =
        start.table.size + (alone.declare place' name kind span).2 := by
  have hpath := hplace.path name kind
  have hhead : (place'.path name kind).segments.head? = some module :=
    congrArg some hplace.inModule_alone
  have hown : ∀ k, c.find? (place.path name kind) k =
      (alone.find? (place'.path name kind) k).map (start.table.size + ·) := fun k => by
    rw [hpath]
    exact h.own _ k hhead
  have hsize : c.table.size = start.table.size + alone.table.size := by
    rw [h.table, SymbolTable.size_join]
  cases hfound : alone.find? (place'.path name kind) kind with
  | some id =>
      simp only [Catalogue.declare, hown kind, hfound, Option.map_some]
      exact ⟨h, trivial⟩
  | none =>
      have hpartner : (partner? kind).bind (c.find? (place.path name kind)) =
          ((partner? kind).bind (alone.find? (place'.path name kind))).map
            (start.table.size + ·) := by
        cases partner? kind with
        | none => rfl
        | some other => exact hown other
      cases hjoin : (partner? kind).bind (alone.find? (place'.path name kind)) with
      | some id =>
          simp only [Catalogue.declare, hown kind, hfound, hpartner, hjoin, Option.map_some,
            Option.map_none]
          refine ⟨?_, trivial⟩
          rw [hpath]
          refine (h.withTable ?_).remember hhead kind id
          rw [h.table]
          cases kind == .klass with
          | false => rfl
          | true => exact SymbolTable.join_modify _ _ file id fun _ => rfl
      | none =>
          simp only [Catalogue.declare, hown kind, hfound, hpartner, hjoin, Option.map_none]
          refine ⟨?_, hsize⟩
          simp only [Catalogue.register, hpath, hsize]
          refine (h.withTable ?_).remember hhead kind alone.table.size
          rw [← SymbolTable.join_push, ← h.table]
          refine congrArg c.table.push ?_
          simp only [Symbol.inFile, hplace.inFile, hplace.parent]

end Catalogue

/-! ## One file -/

section

open Catalogue

variable {module : String} {file : Nat} {start : Catalogue}

lemma declareSimple_joins {place place' : Place} {alone c : Catalogue}
    (hplace : Places module file start.table.size place place')
    (h : Joins module file start alone c) (d : Declaration) :
    Joins module file start (declareSimple place' alone d) (declareSimple place c d) := by
  cases d with
  | interface node => exact (h.declare hplace _ _ _).1
  | «alias» node => exact (h.declare hplace _ _ _).1
  | enum node => exact (h.declare hplace _ _ _).1
  | klass node =>
      simp only [declareSimple]
      cases node.name with
      | none => exact h
      | some name => exact (h.declare hplace _ _ _).1
  | function node =>
      simp only [declareSimple]
      cases node.name with
      | none => exact h
      | some name => exact (h.declare hplace _ _ _).1
  | «variables» kind nodes =>
      simp only [declareSimple]
      induction nodes generalizing alone c with
      | nil => exact h
      | cons node rest ih =>
          rw [List.foldl_cons, List.foldl_cons]
          cases node.binding.name? with
          | none => exact ih h
          | some name => exact ih (h.declare hplace name .variable node.span).1
  | nameSpace span name body => exact h

mutual

lemma declareStatement_joins : ∀ {place place' : Place} {alone c : Catalogue} (s : Statement),
    Places module file start.table.size place place' → Joins module file start alone c →
      Joins module file start (declareStatement place' alone s) (declareStatement place c s)
  | _, _, _, _, .declaration _ d, hplace, h => declareDeclaration_joins d hplace h
  | _, _, _, _, .global _, _, h => h
  | _, _, _, _, .exportAssignment _, _, h => h
  | _, _, _, _, .otherExport _, _, h => h
  | _, _, _, _, .imports _, _, h => h
  | _, _, _, _, .block _, _, h => h
  | _, _, _, _, .compound _ _, _, h => h

lemma declareDeclaration_joins : ∀ {place place' : Place} {alone c : Catalogue} (d : Declaration),
    Places module file start.table.size place place' → Joins module file start alone c →
      Joins module file start (declareDeclaration place' alone d) (declareDeclaration place c d)
  | _, _, _, _, .nameSpace span name body, hplace, h => by
      simp only [declareDeclaration]
      cases nestingName? name with
      | none => exact declareAll_joins body hplace h
      | some inner =>
          obtain ⟨hinner, hid⟩ := h.declare hplace inner .nameSpace span
          exact declareAll_joins body (hplace.enter hid inner) hinner
  | _, _, _, _, .interface node, hplace, h => declareSimple_joins hplace h (.interface node)
  | _, _, _, _, .klass node, hplace, h => declareSimple_joins hplace h (.klass node)
  | _, _, _, _, .alias node, hplace, h => declareSimple_joins hplace h (.alias node)
  | _, _, _, _, .enum node, hplace, h => declareSimple_joins hplace h (.enum node)
  | _, _, _, _, .function node, hplace, h => declareSimple_joins hplace h (.function node)
  | _, _, _, _, .variables kind nodes, hplace, h =>
      declareSimple_joins hplace h (.variables kind nodes)

/-- **Declaring statements does the same among others and alone.** -/
lemma declareAll_joins : ∀ {place place' : Place} {alone c : Catalogue}
    (statements : List Statement), Places module file start.table.size place place' →
      Joins module file start alone c →
        Joins module file start (declareAll place' alone statements) (declareAll place c statements)
  | _, _, _, _, [], _, h => h
  | _, _, _, _, s :: rest, hplace, h =>
      declareAll_joins rest hplace (declareStatement_joins s hplace h)

end

/-- **Declaring a file adds its block to the table**, if nothing of its module is declared yet. -/
lemma ReadFile.joins (f : ReadFile) (htop : f.IsTop) {c : Catalogue}
    (hnew : ∀ path kind, path.segments.head? = some f.place.module → c.find? path kind = none) :
    Joins f.place.module f.place.file c f.alone (declareAll f.place c f.program.body) := by
  refine declareAll_joins f.program.body ⟨rfl, rfl, rfl, rfl, ?_⟩ ⟨?_, ?_, fun _ _ _ => rfl⟩
  · rw [htop.1]
    rfl
  · simp [SymbolTable.join, SymbolTable.empty]
  · exact hnew

end

/-! ## All files -/

/-- **What a catalogue of some files is made of**: the platform types, and a block for each file. -/
structure Catalogue.Blocks (files : List ReadFile) (c : Catalogue) : Prop where
  size : c.table.size =
    SymbolTable.platform.size + (files.map fun f => f.alone.table.size).sum
  ambient : c.table.ofFile ambientFile = SymbolTable.platform.moved 0 ambientFile
  block : ∀ f ∈ files, ∃ first,
    c.table.ofFile f.place.file = f.alone.table.moved first f.place.file ∧
    ∀ path kind, path.segments.head? = some f.place.module →
      c.find? path kind = (f.alone.find? path kind).map (first + ·)
  others : ∀ file, file ≠ ambientFile → file ∉ files.map (·.place.file) →
    c.table.ofFile file = []
  known : ∀ path kind id, c.find? path kind = some id →
    ∃ f ∈ files, path.segments.head? = some f.place.module

/-- **Files that can be told apart.**  Their statements stand in no namespace, their modules and
numbers are different, and no number is that of the platform types. -/
structure Distinguished (files : List ReadFile) : Prop where
  top : ∀ f ∈ files, f.IsTop
  modules : (files.map (·.place.module)).Nodup
  numbers : (files.map (·.place.file)).Nodup
  ambient : ambientFile ∉ files.map (·.place.file)

namespace Catalogue

lemma blocks_platform : Blocks [] {} := by
  have hambient : ∀ entry ∈ SymbolTable.platform.toList,
      entry.2.file = ambientFile ∧ entry.2.parent = none := by
    rintro ⟨id, s⟩ hs
    obtain ⟨name, target, rfl⟩ := SymbolTable.platform_external (SymbolTable.get?_of_mem_toList hs)
    exact ⟨rfl, rfl⟩
  refine ⟨rfl, ?_, by simp, fun file hfile _ => ?_, fun _ _ _ h => by cases h⟩
  · show SymbolTable.platform.toList.filter _ = SymbolTable.platform.toList.map _
    rw [List.filter_eq_self.mpr fun entry hentry => beq_iff_eq.mpr (hambient entry hentry).1]
    refine (List.map_id' _).symm.trans (List.map_congr_left fun entry hentry => ?_)
    obtain ⟨hfile, hparent⟩ := hambient entry hentry
    rw [Nat.zero_add, Symbol.inFile, hparent, Option.map_none, ← hparent, ← hfile]
  · show SymbolTable.platform.toList.filter _ = []
    rw [List.filter_eq_nil_iff]
    exact fun entry hentry he => hfile ((beq_iff_eq.mp he).symm.trans (hambient entry hentry).1)

/-- **One more file adds one more block.** -/
lemma Blocks.declare {files : List ReadFile} {c : Catalogue} (h : c.Blocks files) {f : ReadFile}
    (hdistinct : Distinguished (files ++ [f])) :
    (declareAll f.place c f.program.body).Blocks (files ++ [f]) := by
  obtain ⟨htop, hmodules, hnumbers, hambient⟩ := hdistinct
  rw [List.map_append, List.nodup_append] at hmodules hnumbers
  have hmodule : ∀ g ∈ files, g.place.module ≠ f.place.module := fun g hg =>
    hmodules.2.2 _ (List.mem_map_of_mem hg) _ List.mem_cons_self
  have hnumber : ∀ g ∈ files, g.place.file ≠ f.place.file := fun g hg =>
    hnumbers.2.2 _ (List.mem_map_of_mem hg) _ List.mem_cons_self
  have hfile : f.place.file ≠ ambientFile := fun he =>
    hambient (List.mem_map.mpr ⟨f, by simp, he⟩)
  have hjoins := f.joins (htop f (by simp)) (c := c) fun path kind hpath => by
    cases hfound : c.find? path kind with
    | none => rfl
    | some id =>
        obtain ⟨g, hg, hhead⟩ := h.known path kind id hfound
        exact absurd (Option.some.inj (hhead.symm.trans hpath)) (hmodule g hg)
  generalize declareAll f.place c f.program.body = d at hjoins ⊢
  have hofFile : ∀ file, d.table.ofFile file = c.table.ofFile file ++
      if file = f.place.file then f.alone.table.moved c.table.size f.place.file else [] := by
    intro file
    rw [hjoins.table, SymbolTable.ofFile_join]
  refine ⟨?_, ?_, fun g hg => ?_, fun file hother hnew => ?_, fun path kind id hid => ?_⟩
  · rw [hjoins.table, SymbolTable.size_join, h.size]
    simp [Nat.add_assoc]
  · rw [hofFile, if_neg hfile.symm, List.append_nil, h.ambient]
  · rcases List.mem_append.mp hg with hg | hg
    · obtain ⟨first, hblock, hfind⟩ := h.block g hg
      refine ⟨first, ?_, fun path kind hpath => ?_⟩
      · rw [hofFile, if_neg (hnumber g hg), List.append_nil, hblock]
      · rw [hjoins.others path kind, hfind path kind hpath]
        rw [hpath]
        exact fun he => hmodule g hg (Option.some.inj he)
    · obtain rfl := List.mem_singleton.mp hg
      have hempty := h.others g.place.file hfile fun hmem => by
        obtain ⟨k, hk, he⟩ := List.mem_map.mp hmem
        exact hnumber k hk he
      refine ⟨c.table.size, ?_, hjoins.own⟩
      rw [hofFile, if_pos rfl, hempty, List.nil_append]
  · rw [List.map_append, List.mem_append, not_or] at hnew
    rw [hofFile, if_neg fun he => hnew.2 (by simp [he]), List.append_nil]
    exact h.others file hother hnew.1
  · by_cases hpath : path.segments.head? = some f.place.module
    · exact ⟨f, by simp, hpath⟩
    · rw [hjoins.others path kind hpath] at hid
      obtain ⟨g, hg, hhead⟩ := h.known path kind id hid
      exact ⟨g, List.mem_append_left _ hg, hhead⟩

end Catalogue

/-- **The table of the first pass is made of blocks.** -/
theorem declareFiles_blocks {files : List ReadFile} (h : Distinguished files) :
    (declareFiles files).Blocks files := by
  induction files using List.reverseRecOn with
  | nil => exact Catalogue.blocks_platform
  | append_singleton files f ih =>
      have hfiles : Distinguished files :=
        ⟨fun g hg => h.top g (List.mem_append_left _ hg),
          (List.map_append ▸ h.modules).of_append_left,
          (List.map_append ▸ h.numbers).of_append_left,
          fun hmem => h.ambient (by rw [List.map_append]; exact List.mem_append_left _ hmem)⟩
      have hlast : declareFiles (files ++ [f]) =
          declareAll f.place (declareFiles files) f.program.body := by
        simp [declareFiles]
      rw [hlast]
      exact (ih hfiles).declare h

end Interop
