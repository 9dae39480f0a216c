import Interop.Proofs.FlatNames
import Interop.Proofs.Merging
import Interop.Proofs.Renumbering.Collection

/-!
# Declarations of a file in another order

A symbol is registered where something is declared for the first time.  So the table of the first
pass lists what is declared, without repetition, and of that a name leads to the first entry.  If a
file declares the same in another order, and the first type of each path stays the first, then its
symbols get other numbers, and every name still leads to what it led to.

* `DeclKey.merged` — what the declarations of one symbol have in common.
* `declareFiles_keys` — the table lists what is declared.
* `SymbolTable.lookup_eq_keys` — a name leads to the first entry that has it.
* `reindex` — the number of an entry in another list of the same entries.
* `Rekeyed` — the files of two runs, of which one declares the same in another order.
* **`Rekeyed.lookup`** — names lead to symbols that correspond.
-/

namespace Interop

open Source

/-! ## What is declared -/

/-- What declarations that share a symbol have in common. -/
def DeclKey.merged (key : DeclKey) : DeclKey :=
  (key.1, key.2.shared)

/-- What a file declares, where declarations that share a symbol are not told apart. -/
def ReadFile.mergedKeys (f : ReadFile) : List DeclKey :=
  f.keys.map DeclKey.merged

/-- What the declarations of a symbol have in common. -/
def Symbol.key (s : Symbol) : DeclKey :=
  (s.path, s.kind.shared)

namespace SymbolTable

/-- What the symbols of a table declare, in order. -/
def keys (t : SymbolTable) : List DeclKey :=
  t.symbols.toList.map Symbol.key

variable {t : SymbolTable} {id : Nat}

lemma getElem?_keys (t : SymbolTable) (id : Nat) : t.keys[id]? = (t.get? id).map Symbol.key := by
  simp [keys, get?]

lemma keys_push (t : SymbolTable) (s : Symbol) : (t.push s).keys = t.keys ++ [s.key] := by
  simp [keys, push]

/-- An interface that becomes a class declares the same. -/
lemma keys_modify {s : Symbol} (hs : t.get? id = some s) (hshared : s.kind.shared = .klass) :
    (t.modify id fun s => { s with kind := .klass }).keys = t.keys := by
  refine List.ext_getElem? fun i => ?_
  rw [getElem?_keys, getElem?_keys, get?_modify]
  split_ifs with hi
  · rw [← hi, hs]
    exact congrArg (fun kind => some (s.path, kind)) hshared.symm
  · rfl

end SymbolTable

/-- One more declaration is listed, unless one of the same symbol is listed already. -/
lemma Catalogue.keys_declare {keys : List DeclKey} {numbers : List Nat} {c : Catalogue}
    (h : c.Registered keys numbers) {listed : List DeclKey}
    (hc : c.table.keys = listed ++ (keys.map DeclKey.merged).eraseDups) (place : Place)
    (name : String) (kind : SymbolKind) (span : Span) :
    (c.declare place name kind span).1.table.keys =
      listed ++ ((keys ++ [(place.path name kind, kind)]).map DeclKey.merged).eraseDups := by
  have hkey : DeclKey.merged (place.path name kind, kind) ∈ keys.map DeclKey.merged ↔
      ∃ id s, c.table.get? id = some s ∧ s.path = place.path name kind ∧
        s.externalName = none ∧ s.kind.shared = kind.shared := by
    constructor
    · intro hmem
      obtain ⟨⟨path, other⟩, hother, he⟩ := List.mem_map.mp hmem
      obtain ⟨rfl, hshared⟩ := Prod.mk.inj he
      obtain ⟨id, hid⟩ := Option.isSome_iff_exists.mp ((h.key _ _).mpr hother)
      obtain ⟨s, hs, hpath, hexternal, hkind⟩ := h.symbol _ _ id hid
      exact ⟨id, s, hs, hpath, hexternal, hkind.trans hshared⟩
    · rintro ⟨id, s, hs, hpath, hexternal, hshared⟩
      have hfound := h.found id s hs hexternal
      refine List.mem_map.mpr ⟨(s.path, s.kind), (h.key _ _).mp (by rw [hfound]; rfl), ?_⟩
      rw [DeclKey.merged, DeclKey.merged, hpath, hshared]
  rw [List.map_append, List.map_singleton, eraseDups_concat]
  rcases c.declare_cases h place name kind span with
    ⟨s, hs, hpath, hexternal, hshared, htable⟩ | ⟨hnew, htable⟩
  · rw [if_pos (hkey.mpr ⟨_, s, hs, hpath, hexternal, hshared⟩), ← hc]
    rcases htable with htable | ⟨rfl, htable⟩
    · rw [htable]
    · rw [htable, SymbolTable.keys_modify hs hshared]
  · rw [if_neg, htable, SymbolTable.keys_push, hc, List.append_assoc]
    · rfl
    · rintro hmem
      obtain ⟨id, s, hs, hpath, hexternal, hshared⟩ := hkey.mp hmem
      exact h.shared_ne_of_new hnew hs hexternal hpath hshared

/-- **The table of the first pass lists what is declared**, without repetition, behind the platform
types. -/
lemma declareFiles_keys (files : List ReadFile) : (declareFiles files).table.keys =
    SymbolTable.platform.keys ++ (files.flatMap ReadFile.mergedKeys).eraseDups := by
  have hkeys : (declareFiles files).table.keys = SymbolTable.platform.keys ++
      ((files.flatMap ReadFile.keys).map DeclKey.merged).eraseDups :=
    (declareFiles_keeps
      (P := fun keys c => c.Registered keys (files.map (·.place.file)) ∧
        c.table.keys = SymbolTable.platform.keys ++ (keys.map DeclKey.merged).eraseDups)
      (fun _ hf _ _ _ _ kind span hfile _ hc =>
        ⟨hc.1.declare kind span (hfile ▸ List.mem_map_of_mem hf),
          Catalogue.keys_declare hc.1 hc.2 _ _ _ _⟩)
      ⟨Catalogue.registered_platform, by simp⟩).2
  rw [hkeys, List.map_flatMap]
  rfl

/-- The path of what a file declares begins with its module, and more follows. -/
lemma ReadFile.mem_mergedKeys {f : ReadFile} {key : DeclKey} (h : key ∈ f.mergedKeys) :
    ∃ names name kind, key = (keyOf f.place.module names name kind).merged := by
  obtain ⟨other, hother, rfl⟩ := List.mem_map.mp h
  obtain ⟨-, names, name, hkey⟩ := keysOf_inModule hother
  exact ⟨names, name, other.2, congrArg DeclKey.merged hkey⟩

/-- The path of a platform type is its name. -/
lemma SymbolTable.mem_keys_platform {key : DeclKey} (h : key ∈ SymbolTable.platform.keys) :
    ∃ name, key.1.segments = [name] := by
  obtain ⟨id, hid⟩ := List.mem_iff_getElem?.mp h
  rw [getElem?_keys] at hid
  obtain ⟨s, hs, rfl⟩ := Option.map_eq_some_iff.mp hid
  obtain ⟨name, target, rfl⟩ := platform_external hs
  exact ⟨name, rfl⟩

/-- Whatever is declared is listed once. -/
lemma nodup_keys (files : List ReadFile) : (declareFiles files).table.keys.Nodup := by
  rw [declareFiles_keys, List.nodup_append]
  refine ⟨by decide, nodup_eraseDups _, ?_⟩
  rintro key hplatform _ hdeclared rfl
  obtain ⟨other, hother⟩ := SymbolTable.mem_keys_platform hplatform
  obtain ⟨f, -, hkey⟩ := List.mem_flatMap.mp (List.mem_eraseDups.mp hdeclared)
  obtain ⟨names, name, kind, rfl⟩ := ReadFile.mem_mergedKeys hkey
  have hlength := congrArg List.length hother
  simp [keyOf, DeclKey.merged] at hlength

/-! ## Where names lead -/

/-- The file of what has a path: a platform type is in none, and a module is that of one file. -/
def fileOf (files : List ReadFile) (path : DeclPath) : Nat :=
  match path.segments with
  | [_] => ambientFile
  | segments => (((files.map (·.place)).find? fun place =>
      segments.head? == some place.module).map (·.file)).getD ambientFile

lemma fileOf_of_head {files : List ReadFile} (hmodules : (files.map (·.place.module)).Nodup)
    {f : ReadFile} (hf : f ∈ files) {path : DeclPath}
    (hhead : path.segments.head? = some f.place.module) (hlength : path.segments.length ≠ 1) :
    fileOf files path = f.place.file := by
  have hfind : ((files.map (·.place)).find? fun place =>
      path.segments.head? == some place.module) = some f.place := by
    obtain ⟨place, hplace⟩ : ∃ place, ((files.map (·.place)).find? fun place =>
        path.segments.head? == some place.module) = some place := by
      rw [← Option.isSome_iff_exists, List.find?_isSome]
      exact ⟨f.place, List.mem_map_of_mem hf, by simp [hhead]⟩
    obtain ⟨g, hg, rfl⟩ := List.mem_map.mp (List.mem_of_find?_eq_some hplace)
    have hmodule : g.place.module = f.place.module := by
      have hsome := List.find?_some hplace
      rw [hhead] at hsome
      exact (Option.some.inj (beq_iff_eq.mp hsome)).symm
    rw [hplace, List.inj_on_of_nodup_map hmodules hg hf hmodule]
  unfold fileOf
  split
  · rename_i h
    exact absurd (congrArg List.length h) hlength
  · rw [hfind]
    rfl

/-- The file of a symbol is known from its path. -/
lemma declareFiles_file {files : List ReadFile} (htop : ∀ f ∈ files, f.IsTop)
    (hmodules : (files.map (·.place.module)).Nodup) {id : Nat} {s : Symbol}
    (hs : (declareFiles files).table.get? id = some s) : s.file = fileOf files s.path := by
  by_cases hexternal : s.externalName = none
  · obtain ⟨module, names, hmodule, -, hsegments⟩ :=
      (declareFiles_nested files htop hmodules).path id s hs hexternal
    obtain ⟨f, hf, he⟩ := List.mem_map.mp hmodule
    obtain ⟨hfile, rfl⟩ := Prod.mk.inj he
    rw [fileOf_of_head hmodules hf (by rw [hsegments]; rfl) (by rw [hsegments]; simp)]
    exact hfile.symm
  · refine declareFiles_symbols (p := fun s => s.externalName ≠ none →
      s.file = fileOf files s.path) (fun _ h => h) (fun _ _ _ _ h => absurd rfl h)
      (fun _ _ _ => rfl) files hs hexternal

/-- Whether what is declared is found as a type by a name, in files of some kind. -/
def DeclKey.found (file : DeclPath → Nat) (name : List String) (among : Nat → Bool)
    (key : DeclKey) : Bool :=
  (if file key.1 == ambientFile then key.1.segments else key.1.segments.drop 1) == name &&
    key.2.isType && among (file key.1)

/-- The place of the first element with a property. -/
lemma map_find?_zipIdx {α : Type} [BEq α] [LawfulBEq α] (p : α → Bool) : ∀ (xs : List α) (n : Nat),
    ((xs.zipIdx n).find? fun x => p x.1).map (·.2) = (xs.find? p).map fun x => n + xs.idxOf x
  | [], _ => rfl
  | x :: xs, n => by
      rw [List.zipIdx_cons]
      cases hx : p x with
      | true => simp [hx]
      | false =>
          rw [List.find?_cons_of_neg (by simp [hx]), List.find?_cons_of_neg (by simp [hx]),
            map_find?_zipIdx p xs (n + 1)]
          cases hfirst : xs.find? p with
          | none => rfl
          | some y =>
              have hne : x ≠ y := by
                rintro rfl
                rw [List.find?_some hfirst] at hx
                cases hx
              simp [List.idxOf_cons_ne _ hne, Nat.add_comm, Nat.add_left_comm]

lemma find?_eraseDups {α : Type} [BEq α] [LawfulBEq α] (p : α → Bool) (xs : List α) :
    xs.eraseDups.find? p = xs.find? p := by
  induction xs using List.reverseRecOn with
  | nil => rfl
  | append_singleton xs x ih =>
      rw [eraseDups_concat, List.find?_append]
      split_ifs with hx
      · rw [ih]
        cases hp : p x with
        | false => simp [hp]
        | true =>
            have hsome : (xs.find? p).isSome = true := List.find?_isSome.mpr ⟨x, hx, hp⟩
            rw [Option.or_of_isSome hsome]
      · rw [List.find?_append, ih]

/-- **A name leads to the first entry that has it**: in the asking file, else in any, else of the
platform types. -/
lemma SymbolTable.lookup_eq_keys {t : SymbolTable} {file : DeclPath → Nat}
    (hfile : ∀ id s, t.get? id = some s → s.file = file s.path) (name : List String)
    (asking : Nat) : t.lookup name asking SymbolKind.isType =
      ((t.keys.find? (DeclKey.found file name (· == asking))).or
        ((t.keys.find? (DeclKey.found file name (· != ambientFile))).or
          (t.keys.find? (DeclKey.found file name fun _ => true)))).map t.keys.idxOf := by
  have hzip : t.keys.zipIdx = t.toList.map fun entry => (entry.2.key, entry.1) := by
    simp [keys, toList, List.zipIdx_map, Function.comp_def]
  have hfirst : ∀ among : Nat → Bool,
      ((t.matching name SymbolKind.isType).find? fun entry => among entry.2.file).map (·.1) =
        (t.keys.find? (DeclKey.found file name among)).map t.keys.idxOf := by
    intro among
    have hplace := map_find?_zipIdx (DeclKey.found file name among) t.keys 0
    simp only [Nat.zero_add] at hplace
    rw [← hplace, hzip, List.find?_map, Option.map_map, matching, List.find?_filter]
    refine congrArg _ (List.find?_congr fun entry hentry => ?_)
    have hsame := hfile _ _ (get?_of_mem_toList hentry)
    have htype : entry.2.kind.shared.isType = entry.2.kind.isType := by
      cases entry.2.kind <;> rfl
    rw [Bool.eq_iff_iff]
    simp [DeclKey.found, Symbol.key, Symbol.scopedName, Symbol.isAmbient, hsame, htype]
  have hor : ∀ a b : Option (Nat × Symbol), (a <|> b) = a.or b := fun a b => by cases a <;> rfl
  have hhead : (t.matching name SymbolKind.isType).head? =
      (t.matching name SymbolKind.isType).find? fun _ => true := by
    cases t.matching name SymbolKind.isType <;> rfl
  simp only [lookup, hor, Option.map_or, hhead]
  rw [hfirst (· == asking), hfirst fun _ => true, ← hfirst (· != ambientFile)]
  rfl

/-! ## Entries in other places -/

section

variable {α : Type} [BEq α] [LawfulBEq α] {old new : List α}

/-- The number of an entry in another list of the same entries. -/
def reindex (old new : List α) (i : Nat) : Nat :=
  match old[i]? with
  | some a => new.idxOf a
  | none => i

lemma reindex_idxOf {a : α} (h : a ∈ old) : reindex old new (old.idxOf a) = new.idxOf a := by
  rw [reindex, List.getElem?_idxOf h]

/-- An entry stays what it is. -/
lemma getElem?_reindex (h : new.Perm old) (i : Nat) : new[reindex old new i]? = old[i]? := by
  unfold reindex
  split
  · rename_i a ha
    rw [ha, List.getElem?_idxOf (h.mem_iff.mpr (List.mem_of_getElem? ha))]
  · rename_i hnone
    rw [hnone, List.getElem?_eq_none_iff, h.length_eq]
    exact List.getElem?_eq_none_iff.mp hnone

/-- Different entries have different numbers. -/
lemma reindex_injective (h : new.Perm old) (hnodup : old.Nodup) :
    Function.Injective (reindex old new) := by
  intro i j hij
  have hsame : old[i]? = old[j]? := by
    rw [← getElem?_reindex h i, ← getElem?_reindex h j, hij]
  by_cases hi : i < old.length
  · exact (List.getElem?_inj hi hnodup).mp hsame
  · have hnone : old[i]? = none := List.getElem?_eq_none_iff.mpr (Nat.le_of_not_lt hi)
    simpa [reindex, ← hsame, hnone] using hij

end

/-! ## Two runs -/

/-- The first type that is declared under a path, where declarations that share a symbol are not told
apart. -/
def ReadFile.firstType (f : ReadFile) (path : DeclPath) : Option DeclKey :=
  f.mergedKeys.find? fun key => key.1 == path && key.2.isType

/-- **The files of two runs**, of which one declares the same in another order.  The first type of
each path stays the first. -/
structure Rekeyed (before after : List ReadFile) (f f' : ReadFile) : Prop where
  top : ∀ g ∈ before ++ f :: after, g.IsTop
  modules : ((before ++ f :: after).map (·.place.module)).Nodup
  place : f'.place = f.place
  declared : ∀ key, key ∈ f'.mergedKeys ↔ key ∈ f.mergedKeys
  first : ∀ path, f'.firstType path = f.firstType path

namespace Rekeyed

variable {before after : List ReadFile} {f f' : ReadFile} (h : Rekeyed before after f f')
include h

lemma places_eq :
    (before ++ f' :: after).map (·.place) = (before ++ f :: after).map (·.place) := by
  rw [List.map_append, List.map_append, List.map_cons, List.map_cons, h.place]

lemma top_right : ∀ g ∈ before ++ f' :: after, g.IsTop := by
  intro g hg
  have hplace : g.place ∈ (before ++ f :: after).map (·.place) :=
    h.places_eq ▸ List.mem_map_of_mem hg
  obtain ⟨g', hg', he⟩ := List.mem_map.mp hplace
  have htop := h.top g' hg'
  unfold ReadFile.IsTop at htop ⊢
  rwa [← he]

lemma modules_right : ((before ++ f' :: after).map (·.place.module)).Nodup := by
  have hmodules := congrArg (List.map (·.module)) h.places_eq
  rw [List.map_map, List.map_map] at hmodules
  exact (congrArg List.Nodup hmodules).mpr h.modules

/-- The same is listed in both. -/
lemma keys_perm : (declareFiles (before ++ f' :: after)).table.keys.Perm
    (declareFiles (before ++ f :: after)).table.keys := by
  rw [List.perm_ext_iff_of_nodup (nodup_keys _) (nodup_keys _)]
  intro key
  simp only [declareFiles_keys, List.mem_append, List.mem_eraseDups, List.flatMap_append,
    List.flatMap_cons, h.declared]

omit h in
/-- Among what a file declares, being found by a name is being a type of one path. -/
lemma found_eq {files : List ReadFile} (hmodules : (files.map (·.place.module)).Nodup)
    {g : ReadFile} (hg : g ∈ files) (name : List String) (among : Nat → Bool) : ∃ path,
      ∀ key ∈ g.mergedKeys, DeclKey.found (fileOf files) name among key =
        (key.1 == path && key.2.isType && among g.place.file) := by
  refine ⟨⟨if g.place.file == ambientFile then name else g.place.module :: name, .type⟩,
    fun key hkey => ?_⟩
  obtain ⟨names, last, kind, rfl⟩ := ReadFile.mem_mergedKeys hkey
  have hfile : ∀ role, fileOf files ⟨g.place.module :: names ++ [last], role⟩ = g.place.file :=
    fun role => fileOf_of_head hmodules hg rfl (by simp)
  have htype : kind.shared.isType = kind.isType := by
    cases kind <;> rfl
  simp only [DeclKey.found, DeclKey.merged, keyOf, htype, hfile]
  congr 1
  rw [Bool.eq_iff_iff]
  simp only [Bool.and_eq_true, beq_iff_eq, DeclPath.mk.injEq]
  refine and_congr_left fun hkind => ?_
  have hrole : kind.role = .type := by
    cases kind <;> first | rfl | cases hkind
  split_ifs <;> simp [hrole]

/-- What is found first in the file is the same in both. -/
lemma find?_mergedKeys (name : List String) (among : Nat → Bool) :
    f'.mergedKeys.find? (DeclKey.found (fileOf (before ++ f :: after)) name among) =
      f.mergedKeys.find? (DeclKey.found (fileOf (before ++ f :: after)) name among) := by
  have hf : f ∈ before ++ f :: after := by simp
  obtain ⟨path, hpath⟩ := found_eq h.modules hf name among
  rw [List.find?_congr hpath, List.find?_congr fun key hkey => hpath key ((h.declared key).mp hkey)]
  cases among f.place.file with
  | false => rw [List.find?_eq_none.mpr (by simp), List.find?_eq_none.mpr (by simp)]
  | true => simpa [ReadFile.firstType] using h.first path

/-- What is found first of all is the same in both. -/
lemma find?_keys (name : List String) (among : Nat → Bool) :
    (declareFiles (before ++ f' :: after)).table.keys.find?
        (DeclKey.found (fileOf (before ++ f :: after)) name among) =
      (declareFiles (before ++ f :: after)).table.keys.find?
        (DeclKey.found (fileOf (before ++ f :: after)) name among) := by
  simp only [declareFiles_keys, List.find?_append, find?_eraseDups, List.flatMap_append,
    List.flatMap_cons, h.find?_mergedKeys]

lemma injective : Function.Injective
    (reindex (declareFiles (before ++ f :: after)).table.keys
      (declareFiles (before ++ f' :: after)).table.keys) :=
  reindex_injective h.keys_perm (nodup_keys _)

/-- The numbers of one run in the other. -/
def renumbering : Renumbering :=
  { Renumbering.same with symbol := reindex _ _, symbol_injective := h.injective }

/-- Symbols that correspond are of one path, one file and, up to merging, one kind. -/
lemma get?_some {id : Nat} {s : Symbol}
    (hs : (declareFiles (before ++ f :: after)).table.get? id = some s) :
    ∃ s', (declareFiles (before ++ f' :: after)).table.get? (h.renumbering.symbol id) = some s' ∧
      s'.path = s.path ∧ s'.kind.shared = s.kind.shared ∧ s'.file = s.file := by
  have hkey := getElem?_reindex h.keys_perm id
  rw [SymbolTable.getElem?_keys, SymbolTable.getElem?_keys, hs] at hkey
  obtain ⟨s', hs', he⟩ := Option.map_eq_some_iff.mp hkey
  obtain ⟨hpath, hshared⟩ := Prod.mk.inj he
  refine ⟨s', hs', hpath, hshared, ?_⟩
  rw [declareFiles_file h.top_right h.modules_right hs', declareFiles_file h.top h.modules hs,
    hpath, fileOf, fileOf, h.places_eq]

/-- **Names lead to symbols that correspond.** -/
theorem lookup (name : List String) (file : Nat) :
    (declareFiles (before ++ f' :: after)).table.lookup name file SymbolKind.isType =
      ((declareFiles (before ++ f :: after)).table.lookup name file SymbolKind.isType).map
        h.renumbering.symbol := by
  have hfile : fileOf (before ++ f' :: after) = fileOf (before ++ f :: after) := by
    funext path
    rw [fileOf, fileOf, h.places_eq]
  rw [SymbolTable.lookup_eq_keys fun _ _ => declareFiles_file h.top h.modules,
    SymbolTable.lookup_eq_keys fun _ _ => declareFiles_file h.top_right h.modules_right, hfile,
    h.find?_keys, h.find?_keys, h.find?_keys, Option.map_map]
  refine Option.map_congr fun key hkey => (reindex_idxOf ?_).symm
  simp only [Option.or_eq_some_iff] at hkey
  rcases hkey with hkey | ⟨-, hkey | ⟨-, hkey⟩⟩ <;> exact List.mem_of_find?_eq_some hkey

end Rekeyed

end Interop
