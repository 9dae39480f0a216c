import Interop.Proofs.Renumbering.Alignment
import Mathlib.Algebra.BigOperators.Group.List.Basic
import Mathlib.Data.List.Pairwise

/-!
# Collecting the same files in another order

The tables of two runs over the same files correspond if no two files declare types of one name: the
first pass registers the same blocks, and every file is defined by itself, from names that lead to
corresponding symbols.  The same is noted for each file.

* `Reordered` — the files of two runs.
* `Reordered.declared` — the tables of the first pass correspond.
* `Reordered.views` — and every file sees the same of them.
* **`Reordered.tables`** — so do the tables of the runs.
* `Reordered.notes` — and the same is noted.
-/

namespace Interop

open Source

/-! ## Files -/

/-- A file with another number. -/
def ReadFile.inFile (f : ReadFile) (file : Nat) : ReadFile :=
  { f with place := { f.place with file } }

/-- The names, below its module, that a file declares as types. -/
def ReadFile.typeNames (f : ReadFile) : List (List String) :=
  (f.keys.filter (·.2.isType)).map (·.1.segments.drop 1)

/-- **The files of two runs**: the same ones in another order, with other numbers.  No two declare
types of one name. -/
structure Reordered (σ : Equiv.Perm Nat) (files files' : List ReadFile) : Prop where
  distinguished : Distinguished files
  ambient : σ ambientFile = ambientFile
  perm : files'.Perm (files.map fun f => f.inFile (σ f.place.file))
  apart : files.Pairwise fun f g => f.typeNames.Disjoint g.typeNames

/-- What a file registers alone is what it declares. -/
lemma ReadFile.alone_registered (f : ReadFile) : f.alone.Registered f.keys [0] := by
  have hkeeps : KeepsDeclaring (fun keys c => Catalogue.Registered keys [0] c) 0
      (spansOf f.program.body) :=
    fun keys c place name kind span hfile _ hc => hc.declare kind span (by simp [hfile])
  refine declareAll_keeps hkeeps { f.place with file := 0 } ⟨.empty, []⟩ f.program.body [] rfl
    (List.Subset.refl _) ?_
  constructor <;> simp [Catalogue.find?, SymbolTable.empty, SymbolTable.get?]

/-- Every file is defined. -/
lemma exists_collected {files : List ReadFile} {f : ReadFile} (hf : f ∈ files) :
    ∃ g, (f, g) ∈ files.zip (collect files).2 := by
  rw [← List.map_fst_zip (Nat.le_of_eq (length_collected files).symm)] at hf
  obtain ⟨⟨_, g⟩, hg, rfl⟩ := List.mem_map.mp hf
  exact ⟨g, hg⟩

/-! ## One run -/

namespace Distinguished

variable {files : List ReadFile} (h : Distinguished files)
include h

lemma nested : (declareFiles files).Nested (modulesOf files) :=
  declareFiles_nested files h.top h.modules

/-- A symbol of an input is declared in its file. -/
lemma key_mem {id : Nat} {s : Symbol} (hs : (declareFiles files).table.get? id = some s)
    (hambient : s.isAmbient = false) :
    ∃ f ∈ files, s.file = f.place.file ∧ (s.path, s.kind) ∈ f.keys := by
  have hexternal : s.externalName = none := by
    refine declareFiles_symbols (p := fun s => s.isAmbient = false → s.externalName = none)
      (fun _ h => h) (fun _ _ _ _ _ => rfl) (fun name target h => ?_) files hs hambient
    simp [Symbol.isAmbient, Symbol.external] at h
  obtain ⟨module, names, hmodule, -, hsegments⟩ := h.nested.path id s hs hexternal
  obtain ⟨f, hf, he⟩ := List.mem_map.mp hmodule
  obtain ⟨hfile, rfl⟩ := Prod.mk.inj he
  refine ⟨f, hf, hfile.symm, (f.alone_registered.key _ _).mp ?_⟩
  obtain ⟨first, -, hfind⟩ := (declareFiles_blocks h).block f hf
  have hfound := (declareFiles_registered files).found id s hs hexternal
  rw [hfind _ _ (by rw [hsegments]; rfl)] at hfound
  obtain ⟨k, hk, -⟩ := Option.map_eq_some_iff.mp hfound
  rw [hk]
  rfl

/-- No two files declare types of one name, then no two symbols of different files are types of one
name. -/
lemma typesApart (hapart : files.Pairwise fun f g => f.typeNames.Disjoint g.typeNames) :
    (declareFiles files).table.TypesApart := by
  have hname : ∀ id s, (declareFiles files).table.get? id = some s → s.kind.isType = true →
      s.isAmbient = false → ∃ f ∈ files, s.file = f.place.file ∧ s.scopedName ∈ f.typeNames := by
    intro id s hs hkind hambient
    obtain ⟨f, hf, hfile, hkey⟩ := h.key_mem hs hambient
    refine ⟨f, hf, hfile, ?_⟩
    rw [Symbol.scopedName, hambient]
    exact List.mem_map.mpr ⟨_, List.mem_filter.mpr ⟨hkey, hkind⟩, rfl⟩
  intro id other s u hs hu hskind hukind hsambient huambient he
  obtain ⟨f, hf, hfile, hmem⟩ := hname id s hs hskind hsambient
  obtain ⟨g, hg, hgfile, hmem'⟩ := hname other u hu hukind huambient
  by_cases hfg : f = g
  · rw [hfile, hgfile, hfg]
  · have : Std.Symm fun f g : ReadFile => f.typeNames.Disjoint g.typeNames :=
      ⟨fun _ _ => List.disjoint_symm⟩
    exact absurd (he ▸ hmem') (hapart.forall hf hg hfg hmem)

end Distinguished

/-! ## Two runs -/

namespace Reordered

variable {σ : Equiv.Perm Nat} {files files' : List ReadFile} (h : Reordered σ files files')
include h

lemma mem {f : ReadFile} (hf : f ∈ files) : f.inFile (σ f.place.file) ∈ files' :=
  h.perm.mem_iff.mpr (List.mem_map.mpr ⟨f, hf, rfl⟩)

lemma distinguished_right : Distinguished files' := by
  have hfiles : (files'.map (·.place.file)).Perm ((files.map (·.place.file)).map σ) := by
    have hperm := h.perm.map (·.place.file)
    simpa [ReadFile.inFile, Function.comp_def] using hperm
  have hmodules : (files'.map (·.place.module)).Perm (files.map (·.place.module)) := by
    have hperm := h.perm.map (·.place.module)
    simpa [ReadFile.inFile, Function.comp_def] using hperm
  refine ⟨fun f hf => ?_, ?_, ?_, fun hmem => h.distinguished.ambient ?_⟩
  · obtain ⟨g, hg, rfl⟩ := List.mem_map.mp (h.perm.mem_iff.mp hf)
    exact h.distinguished.top g hg
  · exact hmodules.nodup_iff.mpr h.distinguished.modules
  · exact hfiles.nodup_iff.mpr (h.distinguished.numbers.map σ.injective)
  · obtain ⟨file, hfile, he⟩ := List.mem_map.mp (hfiles.mem_iff.mp hmem)
    rwa [← σ.injective (he.trans h.ambient.symm)]

/-- **The same blocks are registered.** -/
lemma aligned : (declareFiles files).table.Aligned σ (declareFiles files').table := by
  have hleft := declareFiles_blocks h.distinguished
  have hright := declareFiles_blocks h.distinguished_right
  refine ⟨?_, fun file => ?_, fun id s p hs hp => ?_, fun id s hs => declareFiles_bare files hs⟩
  · have hperm := h.perm.map fun f => f.alone.table.size
    rw [List.map_map] at hperm
    rw [hleft.size, hright.size, hperm.sum_eq]
    rfl
  · by_cases hambient : file = ambientFile
    · refine ⟨.platform, 0, 0, hambient ▸ hleft.ambient, ?_⟩
      rw [hambient, h.ambient]
      exact hright.ambient
    by_cases hfile : file ∈ files.map (·.place.file)
    · obtain ⟨f, hf, rfl⟩ := List.mem_map.mp hfile
      obtain ⟨first, hblock, -⟩ := hleft.block f hf
      obtain ⟨first', hblock', -⟩ := hright.block _ (h.mem hf)
      exact ⟨f.alone.table, first, first', hblock, hblock'⟩
    · refine ⟨.empty, 0, 0, hleft.others file hambient hfile,
        hright.others _ (fun he => ?_) fun hmem => ?_⟩
      · exact hambient (σ.injective (he.trans h.ambient.symm))
      · obtain ⟨g, hg, he⟩ := List.mem_map.mp hmem
        obtain ⟨f, hf, rfl⟩ := List.mem_map.mp (h.perm.mem_iff.mp hg)
        exact hfile (List.mem_map.mpr ⟨f, hf, σ.injective he⟩)
  · obtain ⟨-, q, hq, -, hfile⟩ := h.distinguished.nested.parent id s p hs hp
    exact ⟨q, hq, hfile⟩

/-- How the numbers change. -/
def renumbering : Renumbering :=
  h.aligned.renumbering σ.injective h.ambient

lemma declared : h.renumbering.Declared (declareFiles files).table (declareFiles files').table :=
  h.aligned.declared σ.injective h.ambient

/-- A declaration leads to corresponding symbols. -/
lemma find? {f : ReadFile} (hf : f ∈ files) (path : DeclPath) (kind : SymbolKind)
    (hpath : path.segments.head? = some f.place.module) : (declareFiles files').find? path kind =
      ((declareFiles files).find? path kind).map h.renumbering.symbol := by
  obtain ⟨first, hblock, hfind⟩ := (declareFiles_blocks h.distinguished).block f hf
  obtain ⟨first', hblock', hfind'⟩ := (declareFiles_blocks h.distinguished_right).block _ (h.mem hf)
  have hright : (declareFiles files').find? path kind = (f.alone.find? path kind).map (first' + ·) :=
    hfind' path kind hpath
  rw [hright, hfind path kind hpath, Option.map_map]
  cases hk : f.alone.find? path kind with
  | none => rfl
  | some k =>
      obtain ⟨v, hv, -⟩ := f.alone_registered.symbol path kind k hk
      exact congrArg some (SymbolTable.align_add hblock hblock' hv).symm

/-- **Every file sees the same of the first pass.** -/
lemma views {f : ReadFile} (hf : f ∈ files) : h.renumbering.Views f.place.file f.place.module
    (declareFiles files) (declareFiles files') where
  find? := h.find? hf
  found := (Renumbering.Views.same files f.place.file f.place.module).found
  klass := (Renumbering.Views.same files f.place.file f.place.module).klass
  lookup name :=
    h.declared.lookup (h.distinguished.typesApart h.apart) σ.surjective name f.place.file
  known := (Renumbering.Views.same files f.place.file f.place.module).known

/-! ### The second pass -/

/-- **A file is defined alike in both runs.** -/
lemma define {f : ReadFile} {g g' : CollectedFile} (hg : (f, g) ∈ files.zip (collect files).2)
    (hg' : (f.inFile (σ f.place.file), g') ∈ files'.zip (collect files').2) :
    g.path = f.path ∧ g.file = f.place.file ∧ g'.path = f.path ∧ g'.file = σ f.place.file ∧
      g'.notes = g.notes ∧
      ∀ id s, (declareFiles files).Owns f.place.module id → (collect files).1.get? id = some s →
        (collect files').1.get? (h.renumbering.symbol id) = some (s.renumber h.renumbering) := by
  have hf : f ∈ files := (List.of_mem_zip hg).1
  have heach := defineFiles_each (declareFiles_registered files) files h.distinguished.modules
    fun f _ => Catalogue.Untouched.refl _ _
  have heach' := defineFiles_each (declareFiles_registered files') files'
    h.distinguished_right.modules fun f _ => Catalogue.Untouched.refl _ _
  obtain ⟨e, huntouched, rfl, hown⟩ := (List.forall₂_iff_zip.mp heach).2 hg
  obtain ⟨e', huntouched', rfl, hown'⟩ := (List.forall₂_iff_zip.mp heach').2 hg'
  have howns : ∀ id, (declareFiles files).Owns f.place.module id →
      (declareFiles files').Owns f.place.module (h.renumbering.symbol id) := by
    rintro id ⟨path, kind, hid, hpath⟩
    exact ⟨path, kind, by rw [h.find? hf path kind hpath, hid]; rfl, hpath⟩
  have hstart : h.renumbering.Definitions f.place.module (declareFiles files) (declareFiles files')
      ⟨e, []⟩ ⟨e', []⟩ := by
    refine ⟨huntouched.declared, huntouched'.declared, huntouched.bare, huntouched'.bare, rfl, ?_⟩
    intro id s hid hs
    have hs' := (huntouched.own id hid).symm.trans hs
    refine ⟨(huntouched'.own _ (howns id hid)).trans ?_, ?_⟩
    · rw [h.declared.get?, hs']
      rfl
    · rw [Symbol.symbols_of_bare (declareFiles_bare files hs')]
      exact SymbolTable.knows_nil _
  have hplace : h.renumbering.Places f.place.file f.place.module f.place
      (f.inFile (σ f.place.file)).place := ⟨rfl, rfl, rfl, rfl, rfl, rfl⟩
  have hend := Renumbering.define_statements (h.views hf) f.program.body hplace hstart
  refine ⟨rfl, rfl, rfl, rfl, hend.notes, fun id s hid hs => ?_⟩
  exact (hown' _ (howns id hid)).trans (hend.symbol id s hid ((hown id hid).symm.trans hs)).1

/-- Symbols correspond when all files are defined. -/
lemma get?_some {id : Nat} {s : Symbol} (hs : (collect files).1.get? id = some s) :
    (collect files').1.get? (h.renumbering.symbol id) = some (s.renumber h.renumbering) := by
  by_cases howned : ∃ f ∈ files, (declareFiles files).Owns f.place.module id
  · obtain ⟨f, hf, howns⟩ := howned
    obtain ⟨g, hg⟩ := exists_collected hf
    obtain ⟨g', hg'⟩ := exists_collected (h.mem hf)
    obtain ⟨-, -, -, -, -, hown⟩ := h.define hg hg'
    exact hown id s howns hs
  · -- nothing is filled in for what belongs to no file
    have hsame := (defineFiles_fills files (declareFiles files)).others id
      fun module hmodule howns => by
      obtain ⟨f, hf, rfl⟩ := List.mem_map.mp hmodule
      exact howned ⟨f, hf, howns⟩
    have hsame' := (defineFiles_fills files' (declareFiles files')).others
      (h.renumbering.symbol id) fun module hmodule ⟨path, kind, hid, hpath⟩ => by
        obtain ⟨g, hg, rfl⟩ := List.mem_map.mp hmodule
        obtain ⟨f, hf, rfl⟩ := List.mem_map.mp (h.perm.mem_iff.mp hg)
        rw [h.find? hf path kind hpath] at hid
        obtain ⟨other, hother, he⟩ := Option.map_eq_some_iff.mp hid
        obtain rfl := h.renumbering.symbol_injective he
        exact howned ⟨f, hf, path, kind, hother, hpath⟩
    refine hsame'.trans ?_
    rw [h.declared.get?, ← hsame]
    exact congrArg _ hs

/-- **The tables of the two runs correspond.** -/
theorem tables : h.renumbering.Tables (collect files).1 (collect files').1 where
  size := by
    rw [SymbolTable.size_congr (collect_bare files), SymbolTable.size_congr (collect_bare files')]
    exact h.declared.size
  get? id := by
    cases hid : (collect files).1.get? id with
    | some s => exact h.get?_some hid
    | none =>
        have hright : (declareFiles files').table.get? (h.renumbering.symbol id) = none := by
          rw [h.declared.get?, SymbolTable.get?_none_congr (collect_bare files) hid]
          rfl
        exact SymbolTable.get?_none_congr (collect_bare files').symm hright
  children file parent := by
    rw [SymbolTable.children_congr (collect_bare files),
      SymbolTable.children_congr (collect_bare files')]
    exact h.declared.children file parent
  closed := collect_closed files h.distinguished.modules

end Reordered

end Interop
