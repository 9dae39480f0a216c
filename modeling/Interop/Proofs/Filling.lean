import Interop.Proofs.Defined
import Interop.Proofs.Nesting

/-!
# What the second pass leaves alone

The second pass fills symbols in: it adds members, bases and what aliases stand for.  No symbol is
registered, none changes its kind or its place, and the symbols of other modules are not touched.

* `Symbol.bare`, `SymbolTable.bare` — symbols without what the second pass fills in.  Looking up
  names and walking through namespaces depends on nothing else.
* `defineAll_keeps` — induction over the second pass.
* `Catalogue.Fills` — what the second pass may do for the files of one module.
* `defineFiles_each` — every file is defined by itself.
* **`collect_bare`** — the table of a run has the symbols of the first pass.
* **`collect_nested`** — they stand where their paths say.
-/

namespace Interop

open Source

/-! ## Bare symbols -/

/-- A symbol without what the second pass fills in. -/
def Symbol.bare (s : Symbol) : Symbol :=
  { s with typeParams := [], aliased := none, members := [], bases := [], hasSuperclass := false }

/-- Symbols that differ in what is filled in alone declare the same. -/
lemma Symbol.of_bare {s t : Symbol} (h : s.bare = t.bare) :
    s.name = t.name ∧ s.kind = t.kind ∧ s.file = t.file ∧ s.parent = t.parent ∧ s.path = t.path ∧
      s.externalName = t.externalName ∧ s.span = t.span := by
  simpa [bare] using h

namespace SymbolTable

variable {t u : SymbolTable}

/-- A table without what the second pass fills in. -/
def bare (t : SymbolTable) : SymbolTable :=
  ⟨t.symbols.map Symbol.bare⟩

lemma get?_bare (t : SymbolTable) (id : Nat) : t.bare.get? id = (t.get? id).map Symbol.bare :=
  Array.getElem?_map

lemma size_bare (t : SymbolTable) : t.bare.size = t.size :=
  Array.size_map

lemma toList_bare (t : SymbolTable) :
    t.bare.toList = t.toList.map fun entry => (entry.1, entry.2.bare) := by
  simp [toList, bare, List.zipIdx_map, Function.comp_def]

/-- Filling a symbol in does not change what is bare. -/
lemma bare_modify {id : Nat} {f : Symbol → Symbol} (hf : ∀ s, (f s).bare = s.bare) :
    (t.modify id f).bare = t.bare := by
  refine congrArg SymbolTable.mk (Array.ext_getElem? fun i => ?_)
  simp only [modify, Array.getElem?_map, Array.getElem?_modify]
  split_ifs with hi
  · rw [Option.map_map]
    exact congrArg (Option.map · _) (funext hf)
  · rfl

lemma children_bare (t : SymbolTable) (file : Nat) (parent : Option Nat) :
    t.bare.children file parent = t.children file parent := by
  simp only [children, toList_bare, List.filter_map, List.map_map]
  rfl

lemma matching_bare (t : SymbolTable) (name : List String) (accept : SymbolKind → Bool) :
    t.bare.matching name accept =
      (t.matching name accept).map fun entry => (entry.1, entry.2.bare) := by
  simp only [matching, toList_bare, List.filter_map]
  rfl

lemma lookup_bare (t : SymbolTable) (name : List String) (file : Nat)
    (accept : SymbolKind → Bool) : t.bare.lookup name file accept = t.lookup name file accept := by
  have hor : ∀ a b : Option (Nat × Symbol), (a <|> b) = a.or b := fun a b => by cases a <;> rfl
  simp only [lookup, matching_bare, List.find?_map, List.head?_map, hor, Option.map_or,
    Option.map_map]
  rfl

section

variable (h : u.bare = t.bare)
include h

lemma size_congr : u.size = t.size := by
  rw [← size_bare, h, size_bare]

lemma children_congr (file : Nat) (parent : Option Nat) :
    u.children file parent = t.children file parent := by
  rw [← children_bare, h, children_bare]

lemma lookup_congr (name : List String) (file : Nat) (accept : SymbolKind → Bool) :
    u.lookup name file accept = t.lookup name file accept := by
  rw [← lookup_bare, h, lookup_bare]

/-- A symbol of one table is in the other, up to what is filled in. -/
lemma get?_congr {id : Nat} {s : Symbol} (hs : u.get? id = some s) :
    ∃ s', t.get? id = some s' ∧ s.bare = s'.bare := by
  have hmap := u.get?_bare id
  rw [h, get?_bare, hs] at hmap
  cases ht : t.get? id with
  | none => rw [ht] at hmap; cases hmap
  | some s' => rw [ht] at hmap; exact ⟨s', rfl, (Option.some.inj hmap).symm⟩

lemma get?_none_congr {id : Nat} (hid : u.get? id = none) : t.get? id = none := by
  have hmap := u.get?_bare id
  rw [h, get?_bare, hid] at hmap
  exact Option.map_eq_none_iff.mp hmap

lemma encloses_congr {parent : Option Nat} {names : List String} (ht : t.Encloses parent names) :
    u.Encloses parent names := by
  refine ht.mono fun id s hs hkind => ?_
  obtain ⟨s', hs', hbare⟩ := get?_congr h.symm hs
  obtain ⟨hname, hkind', -, hparent, -⟩ := Symbol.of_bare hbare
  exact ⟨s', hs', hkind'.symm.trans hkind, hname.symm, hparent.symm⟩

end

end SymbolTable

/-! ## Induction over the second pass -/

section

variable {P : Catalogue → Prop} {module : String}

/-- A property of a catalogue that filling in one more symbol of a module keeps. -/
def KeepsDefining (P : Catalogue → Prop) (module : String) : Prop :=
  ∀ (c : Catalogue) (place : Place) (name : String) (kind : SymbolKind) (id : Nat)
    (f : Symbol → Symbol), place.module = module → c.find? (place.path name kind) kind = some id →
      (∀ s, (f s).bare = s.bare) → P c → P (c.modify id f)

lemma defineNamed_keeps {place : Place} {d : Definition} {name : Option String}
    {kind : SymbolKind} {define : Nat → Definition} (hd : P d.catalogue)
    (hdefine : ∀ name id, d.catalogue.find? (place.path name kind) kind = some id →
      P (define id).catalogue) : P (defineNamed place d name kind define).catalogue := by
  unfold defineNamed
  split
  · rename_i id hid
    obtain ⟨name, -, hid⟩ := Option.bind_eq_some_iff.mp hid
    exact hdefine name id hid
  · exact hd

lemma defineVariable_keeps (hP : KeepsDefining P module) {place : Place}
    (hmodule : place.module = module) (readonly : Bool) {d : Definition} (node : VariableNode)
    (hd : P d.catalogue) : P (defineVariable place readonly d node).catalogue := by
  unfold defineVariable
  split
  · exact hd
  · split
    · exact hd
    · rename_i id hid
      exact hP _ place _ _ id _ hmodule hid (fun _ => rfl) hd

lemma defineSimple_keeps (hP : KeepsDefining P module) {place : Place}
    (hmodule : place.module = module) {d : Definition} (declaration : Declaration)
    (hd : P d.catalogue) : P (defineSimple place d declaration).catalogue := by
  cases declaration with
  | interface node =>
      exact defineNamed_keeps hd fun name id hid =>
        hP _ place name _ id _ hmodule hid (fun _ => rfl) hd
  | klass node =>
      refine defineNamed_keeps hd fun name id hid =>
        hP _ place name _ id _ hmodule hid (fun s => ?_) hd
      dsimp only
      split_ifs <;> rfl
  | «alias» node =>
      exact defineNamed_keeps hd fun name id hid =>
        hP _ place name _ id _ hmodule hid (fun _ => rfl) hd
  | enum node =>
      exact defineNamed_keeps hd fun name id hid =>
        hP _ place name _ id _ hmodule hid (fun _ => rfl) hd
  | function node =>
      refine defineNamed_keeps hd fun name id hid => ?_
      unfold defineFunction
      dsimp only
      split_ifs
      · exact hd
      · exact hP _ place name _ id _ hmodule hid (fun _ => rfl) hd
  | «variables» kind nodes =>
      simp only [defineSimple]
      induction nodes generalizing d with
      | nil => exact hd
      | cons node rest ih => exact ih (defineVariable_keeps hP hmodule _ node hd)
  | nameSpace span name body => exact hd

mutual

lemma defineStatement_keeps (hP : KeepsDefining P module) : ∀ (place : Place) (d : Definition)
    (s : Statement), place.module = module → P d.catalogue →
      P (defineStatement place d s).catalogue
  | place, d, .declaration _ declaration, hmodule, hd =>
      defineDeclaration_keeps hP place d declaration hmodule hd
  | _, _, .global _, _, hd => hd
  | _, _, .exportAssignment _, _, hd => hd
  | _, _, .otherExport _, _, hd => hd
  | _, _, .imports _, _, hd => hd
  | _, _, .block _, _, hd => hd
  | _, _, .compound _ _, _, hd => hd

lemma defineDeclaration_keeps (hP : KeepsDefining P module) : ∀ (place : Place) (d : Definition)
    (declaration : Declaration), place.module = module → P d.catalogue →
      P (defineDeclaration place d declaration).catalogue
  | place, d, .nameSpace _ name body, hmodule, hd => by
      simp only [defineDeclaration]
      split
      · split
        · exact defineAll_keeps hP _ d body hmodule hd
        · exact hd
      · exact defineAll_keeps hP place d body hmodule hd
  | _, _, .interface node, hmodule, hd => defineSimple_keeps hP hmodule (.interface node) hd
  | _, _, .klass node, hmodule, hd => defineSimple_keeps hP hmodule (.klass node) hd
  | _, _, .alias node, hmodule, hd => defineSimple_keeps hP hmodule (.alias node) hd
  | _, _, .enum node, hmodule, hd => defineSimple_keeps hP hmodule (.enum node) hd
  | _, _, .function node, hmodule, hd => defineSimple_keeps hP hmodule (.function node) hd
  | _, _, .variables kind nodes, hmodule, hd =>
      defineSimple_keeps hP hmodule (.variables kind nodes) hd

/-- **Induction over the second pass.**  What filling in one symbol keeps, the definitions of
statements keep, one after another. -/
lemma defineAll_keeps (hP : KeepsDefining P module) : ∀ (place : Place) (d : Definition)
    (statements : List Statement), place.module = module → P d.catalogue →
      P (defineAll place d statements).catalogue
  | _, _, [], _, hd => hd
  | place, d, s :: rest, hmodule, hd =>
      defineAll_keeps hP place _ rest hmodule (defineStatement_keeps hP place d s hmodule hd)

end

end

/-! ## What is filled in -/

namespace Catalogue

variable {c d e : Catalogue} {modules : List String}

/-- A symbol belongs to a module: a declaration of the module leads to it. -/
def Owns (c : Catalogue) (module : String) (id : Nat) : Prop :=
  ∃ path kind, c.find? path kind = some id ∧ path.segments.head? = some module

/-- **What defining the declarations of some modules may do**: fill in the symbols that belong to
them. -/
structure Fills (modules : List String) (c d : Catalogue) : Prop where
  declared : d.declared = c.declared
  bare : d.table.bare = c.table.bare
  others : ∀ id, (∀ module ∈ modules, ¬ c.Owns module id) → d.table.get? id = c.table.get? id

lemma Owns.congr (h : d.declared = c.declared) {module : String} {id : Nat} :
    d.Owns module id ↔ c.Owns module id := by
  simp only [Owns, find?, h]

namespace Fills

lemma refl (modules : List String) (c : Catalogue) : Fills modules c c :=
  ⟨rfl, rfl, fun _ _ => rfl⟩

lemma trans (h : Fills modules c d) (k : Fills modules d e) : Fills modules c e where
  declared := k.declared.trans h.declared
  bare := k.bare.trans h.bare
  others id hid := by
    rw [k.others id fun module hm howns => hid module hm ((Owns.congr h.declared).mp howns),
      h.others id hid]

lemma mono {more : List String} (h : Fills modules c d) (hsub : modules ⊆ more) :
    Fills more c d :=
  ⟨h.declared, h.bare, fun id hid => h.others id fun module hm => hid module (hsub hm)⟩

lemma keepsDefining (c : Catalogue) (module : String) :
    KeepsDefining (Fills [module] c) module := by
  intro d place name kind id f hmodule hfound hf hd
  refine hd.trans ⟨rfl, SymbolTable.bare_modify hf, fun other hother => ?_⟩
  show (d.table.modify id f).get? other = _
  rw [SymbolTable.get?_modify, if_neg]
  rintro rfl
  exact hother module (List.mem_singleton.mpr rfl) ⟨_, kind, hfound, congrArg some hmodule⟩

end Fills

end Catalogue

open Catalogue

lemma defineAll_fills (place : Place) (d : Definition) (statements : List Statement) :
    Fills [place.module] d.catalogue (defineAll place d statements).catalogue :=
  defineAll_keeps (Fills.keepsDefining d.catalogue place.module) place d statements rfl
    (.refl _ _)

/-- The second pass fills in the symbols of the modules that it visits. -/
lemma defineFiles_fills : ∀ (files : List ReadFile) (c : Catalogue),
    Fills (files.map (·.place.module)) c (defineFiles c files).1
  | [], c => .refl _ c
  | f :: rest, c => by
      have hfirst := defineAll_fills f.place ⟨c, []⟩ f.program.body
      have hrest := defineFiles_fills rest (defineAll f.place ⟨c, []⟩ f.program.body).catalogue
      exact (hfirst.mono (by simp)).trans (hrest.mono fun _ h => List.mem_cons_of_mem _ h)

/-! ### One file after another -/

namespace Catalogue

variable {keys : List DeclKey} {numbers : List Nat} {c d e : Catalogue}

/-- A symbol belongs to one module. -/
lemma Registered.owns_unique (h : c.Registered keys numbers) {module other : String} {id : Nat}
    (hid : c.Owns module id) (hother : c.Owns other id) : module = other := by
  obtain ⟨path, kind, hpath, hhead⟩ := hid
  obtain ⟨path', kind', hpath', hhead'⟩ := hother
  obtain ⟨s, hs, rfl, -⟩ := h.symbol path kind id hpath
  obtain ⟨s', hs', rfl, -⟩ := h.symbol path' kind' id hpath'
  obtain rfl := Option.some.inj (hs.symm.trans hs')
  exact Option.some.inj (hhead.symm.trans hhead')

/-- A module is as it was registered, whatever was filled in elsewhere. -/
structure Untouched (module : String) (c d : Catalogue) : Prop where
  declared : d.declared = c.declared
  bare : d.table.bare = c.table.bare
  own : ∀ id, c.Owns module id → d.table.get? id = c.table.get? id

lemma Untouched.refl (module : String) (c : Catalogue) : Untouched module c c :=
  ⟨rfl, rfl, fun _ _ => rfl⟩

/-- Filling in one module leaves the others untouched. -/
lemma Untouched.fills (h : c.Registered keys numbers) {module other : String}
    (hd : Untouched module c d) (he : Fills [other] d e) (hne : module ≠ other) :
    Untouched module c e where
  declared := he.declared.trans hd.declared
  bare := he.bare.trans hd.bare
  own id hid := by
    rw [he.others id fun owner howner howns => ?_, hd.own id hid]
    obtain rfl := List.mem_singleton.mp howner
    exact hne (h.owns_unique hid ((Owns.congr hd.declared).mp howns))

end Catalogue

/-- **Every file is defined by itself.**  When its turn comes its symbols are as they were
registered, and when the pass is over they are as they were left then. -/
lemma defineFiles_each {keys : List DeclKey} {numbers : List Nat} {c : Catalogue}
    (h : c.Registered keys numbers) : ∀ (files : List ReadFile) {d : Catalogue},
      (files.map (·.place.module)).Nodup → (∀ f ∈ files, Untouched f.place.module c d) →
        List.Forall₂ (fun f g => ∃ e, Untouched f.place.module c e ∧
            g = ⟨f.path, f.place.file, (defineAll f.place ⟨e, []⟩ f.program.body).notes⟩ ∧
            ∀ id, c.Owns f.place.module id → (defineFiles d files).1.table.get? id =
              (defineAll f.place ⟨e, []⟩ f.program.body).catalogue.table.get? id)
          files (defineFiles d files).2
  | [], _, _, _ => .nil
  | f :: rest, d, hnodup, huntouched => by
      obtain ⟨hnew, hnodup⟩ := List.nodup_cons.mp hnodup
      have hfirst := defineAll_fills f.place ⟨d, []⟩ f.program.body
      have hf := huntouched f List.mem_cons_self
      refine .cons ⟨d, hf, rfl, fun id hid => ?_⟩ (defineFiles_each h rest hnodup fun g hg => ?_)
      · refine (defineFiles_fills rest _).others id fun other hother howns => hnew ?_
        have hdeclared := hfirst.declared.trans hf.declared
        obtain rfl := h.owns_unique hid ((Owns.congr hdeclared).mp howns)
        exact hother
      · refine (huntouched g (List.mem_cons_of_mem _ hg)).fills h hfirst fun he => hnew ?_
        exact List.mem_map.mpr ⟨g, hg, he⟩

/-- **The second pass registers no symbol**, and changes neither the kind nor the place of any. -/
theorem collect_bare (files : List ReadFile) :
    (collect files).1.bare = (declareFiles files).table.bare :=
  (defineFiles_fills files (declareFiles files)).bare

/-- A symbol of a run is one of the first pass, with what is said about it filled in. -/
lemma collect_declared {files : List ReadFile} {id : Nat} {s : Symbol}
    (hs : (collect files).1.get? id = some s) :
    ∃ t, (declareFiles files).table.get? id = some t ∧ s.kind = t.kind ∧ s.path = t.path ∧
      s.file = t.file ∧ s.externalName = t.externalName := by
  obtain ⟨t, ht, hbare⟩ := SymbolTable.get?_congr (collect_bare files) hs
  obtain ⟨-, hkind, hfile, -, hpath, hexternal, -⟩ := Symbol.of_bare hbare
  exact ⟨t, ht, hkind, hpath, hfile, hexternal⟩

lemma Catalogue.Nested.congr {c d : Catalogue} {modules : List (Nat × String)}
    (h : c.Nested modules) (hd : d.table.bare = c.table.bare) : d.Nested modules where
  distinct := h.distinct
  path id s hs hexternal := by
    obtain ⟨s', hs', hbare⟩ := SymbolTable.get?_congr hd hs
    obtain ⟨hname, -, hfile, hparent, hpath, hexternal', -⟩ := Symbol.of_bare hbare
    obtain ⟨module, names, hmodule, hencloses, hsegments⟩ :=
      h.path id s' hs' (hexternal' ▸ hexternal)
    rw [hname, hfile, hparent, hpath]
    exact ⟨module, names, hmodule, SymbolTable.encloses_congr hd hencloses, hsegments⟩
  parent id s p hs hp := by
    obtain ⟨s', hs', hbare⟩ := SymbolTable.get?_congr hd hs
    obtain ⟨-, -, hfile, hparent, -⟩ := Symbol.of_bare hbare
    obtain ⟨hlt, q, hq, hkind, hqfile⟩ := h.parent id s' p hs' (hparent ▸ hp)
    obtain ⟨q', hq', hqbare⟩ := SymbolTable.get?_congr hd.symm hq
    obtain ⟨-, hqkind, hqfile', -⟩ := Symbol.of_bare hqbare
    exact ⟨hlt, q', hq', hqkind.symm.trans hkind, hqfile'.symm.trans (hqfile.trans hfile.symm)⟩

/-- **The symbols of a run stand where their paths say.** -/
theorem collect_nested (files : List ReadFile) (htop : ∀ f ∈ files, f.IsTop)
    (distinct : (files.map (·.place.module)).Nodup) :
    (defineFiles (declareFiles files) files).1.Nested (modulesOf files) :=
  (declareFiles_nested files htop distinct).congr (collect_bare files)

/-! ## The files of a run -/

section

variable {files : List SourceFile} {programs : List Program}

/-- A file of a run has the number of its place among the inputs. -/
lemma placeFiles_getElem? {i : Nat} {f : ReadFile} (h : (placeFiles files programs)[i]? = some f) :
    ∃ file name program, files[i]? = some file ∧
      (moduleNames (files.map (·.path)))[i]? = some name ∧ programs[i]? = some program ∧
      f = ⟨file.path, { file := i, module := name, source := file.text }, program⟩ := by
  simp only [placeFiles, List.getElem?_map, List.getElem?_zipIdx, Option.map_map,
    Option.map_eq_some_iff, Function.comp_apply, Nat.zero_add] at h
  obtain ⟨⟨⟨file, name⟩, program⟩, hzip, rfl⟩ := h
  obtain ⟨hzip, hprogram⟩ := List.getElem?_zip_eq_some.mp hzip
  obtain ⟨hfile, hname⟩ := List.getElem?_zip_eq_some.mp hzip
  exact ⟨file, name, program, hfile, hname, hprogram, rfl⟩

lemma placeFiles_isTop : ∀ f ∈ placeFiles files programs, f.IsTop := by
  intro f hf
  obtain ⟨i, hi⟩ := List.mem_iff_getElem?.mp hf
  obtain ⟨file, name, program, -, -, -, rfl⟩ := placeFiles_getElem? hi
  exact ⟨rfl, rfl⟩

lemma placeFiles_modules_nodup :
    ((placeFiles files programs).map (·.place.module)).Nodup := by
  rw [List.nodup_iff_getElem?_ne_getElem?]
  intro i j hij hj
  rw [List.length_map] at hj
  obtain ⟨_, _, _, -, hi', -, hfi⟩ :=
    placeFiles_getElem? (List.getElem?_eq_getElem (Nat.lt_trans hij hj))
  obtain ⟨_, _, _, -, hj', -, hfj⟩ := placeFiles_getElem? (List.getElem?_eq_getElem hj)
  rw [List.getElem?_map, List.getElem?_map, List.getElem?_eq_getElem (Nat.lt_trans hij hj),
    List.getElem?_eq_getElem hj, hfi, hfj]
  have hlt := (List.getElem?_eq_some_iff.mp hj').1
  have hne := List.nodup_iff_getElem?_ne_getElem?.mp (moduleNames_nodup (files.map (·.path)))
    i j hij hlt
  rwa [hi', hj'] at hne

end

end Interop
