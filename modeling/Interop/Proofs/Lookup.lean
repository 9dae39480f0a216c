import Interop.Proofs.Filling
import Mathlib.Order.Bounds.Basic

/-!
# Looking up names

A table is searched by scoped names so often that the symbols of each name are worth remembering.
The name of a symbol is written down when the symbol is registered, and its kind is read when the
name is looked up, because an interface may have become a class since.

* `TableStep`, `IndexedTable.after` — the tables that registering and changing symbols lead to, and
  the numbers that are remembered for each name on the way.
* `IndexedTable.Indexed` — for each name, the numbers of the symbols that have it, in order.
  Registering a symbol and changing one keep this.
* `IndexedTable.Chosen` — the symbol that a lookup prefers, whichever way it is found.
* **`lookup_chosen`** — looking up what is remembered finds what a scan of all symbols finds: the
  first symbol of the asking file, else of any input, else of all.
* **`collect_after`** — the table of a run is one of these tables.
-/

namespace Interop

/-! ## Tables and their histories -/

/-- A change that leaves a symbol where it is declared. -/
structure SymbolChange where
  apply : Symbol → Symbol
  path : ∀ s, (apply s).path = s.path
  file : ∀ s, (apply s).file = s.file

/-- Give a symbol another kind. -/
def SymbolChange.kind (kind : SymbolKind) : SymbolChange :=
  ⟨fun s => { s with kind }, fun _ => rfl, fun _ => rfl⟩

/-- One thing that happens to a table. -/
inductive TableStep where
  | register (s : Symbol)
  | change (id : Nat) (f : SymbolChange)

/-- The symbols that were registered, in order, as they were then. -/
def registered (history : List TableStep) : List Symbol :=
  history.filterMap fun
    | .register s => some s
    | .change .. => none

/-- A table, and the numbers of the symbols that were registered under each scoped name. -/
structure IndexedTable where
  table : SymbolTable := .empty
  index : Std.HashMap (List String) (List Nat) := ∅

namespace IndexedTable

/-- The numbers that are remembered for a name. -/
def candidates (t : IndexedTable) (name : List String) : List Nat :=
  t.index.getD name []

/-- Add a symbol under its scoped name, or change one, which does not touch the names. -/
def step (t : IndexedTable) : TableStep → IndexedTable
  | .register s =>
    ⟨t.table.push s, t.index.insert s.scopedName (t.candidates s.scopedName ++ [t.table.size])⟩
  | .change id f => { t with table := t.table.modify id f.apply }

/-- The table that a history leads to. -/
def after (history : List TableStep) : IndexedTable :=
  history.foldl step {}

/-- The symbol with a number, if its kind is accepted now. -/
def accepted? (t : IndexedTable) (accept : SymbolKind → Bool) (id : Nat) : Option (Nat × Symbol) :=
  ((t.table.get? id).filter fun s => accept s.kind).map (id, ·)

/-- Find a symbol among those that are remembered for a name.  One of the asking file comes before
those of other inputs, and these before platform types. -/
def lookup (t : IndexedTable) (name : List String) (file : Nat) (accept : SymbolKind → Bool) :
    Option Nat :=
  let found := (t.candidates name).filterMap (t.accepted? accept)
  let first := (found.find? fun (_, s) => s.file == file)
    <|> (found.find? fun (_, s) => !s.isAmbient) <|> found.head?
  first.map (·.1)

end IndexedTable

/-! ## What is remembered -/

/-- A symbol keeps its scoped name where it is declared. -/
lemma Symbol.scopedName_congr {s s' : Symbol} (hpath : s'.path = s.path)
    (hfile : s'.file = s.file) : s'.scopedName = s.scopedName := by
  unfold scopedName isAmbient
  rw [hpath, hfile]

namespace SymbolTable

lemma toList_push (t : SymbolTable) (s : Symbol) :
    (t.push s).toList = t.toList ++ [(t.size, s)] := by
  simp [toList, push, size, List.zipIdx_append]

/-- Changing a symbol keeps all numbers, and what the change leaves alone. -/
lemma toList_modify {α : Type} (t : SymbolTable) (id : Nat) {f : Symbol → Symbol}
    {g : Symbol → α} (hf : ∀ s, g (f s) = g s) :
    (t.modify id f).toList.map (fun entry => (entry.1, g entry.2)) =
      t.toList.map fun entry => (entry.1, g entry.2) := by
  refine List.ext_getElem? fun i => ?_
  simp only [toList, modify, List.map_map, List.getElem?_map, List.getElem?_zipIdx,
    Array.getElem?_toList, Array.getElem?_modify, Option.map_map]
  split_ifs
  · simp [Function.comp_def, hf]
  · rfl

end SymbolTable

namespace IndexedTable

variable {t : IndexedTable}

/-- **What is remembered for a name**: the numbers of the symbols that have it, in order. -/
def Indexed (t : IndexedTable) : Prop :=
  ∀ name, t.candidates name =
    (t.table.toList.filter fun (_, s) => s.scopedName == name).map (·.1)

/-- One step keeps the numbers of each name. -/
lemma Indexed.step (h : t.Indexed) (s : TableStep) : (t.step s).Indexed := by
  intro name
  cases s with
  | register s =>
      have hold := h name
      simp only [candidates] at hold
      simp only [IndexedTable.step, candidates, Std.HashMap.getD_insert, SymbolTable.toList_push,
        List.filter_append, List.map_append]
      by_cases hname : s.scopedName = name
      · subst hname
        simp [hold]
      · simp [hname, hold]
  | change id f =>
      -- the names stay, and the filter looks at nothing else
      have hlist := t.table.toList_modify id fun s => Symbol.scopedName_congr (f.path s) (f.file s)
      have hkept := congrArg (fun entries => (entries.filter (·.2 == name)).map Prod.fst) hlist
      simp only [List.filter_map, List.map_map, Function.comp_def] at hkept
      exact (h name).trans hkept.symm

/-- **Every history keeps the numbers of each name.** -/
lemma after_indexed (history : List TableStep) : (after history).Indexed := by
  induction history using List.reverseRecOn with
  | nil => intro name; simp [after, candidates, SymbolTable.toList, SymbolTable.empty]
  | append_singleton history s ih =>
      rw [after, List.foldl_append]
      exact ih.step s

/-- The symbols of a table are those that were registered, where they were registered. -/
lemma after_registered (history : List TableStep) :
    (after history).table.symbols.toList.map (fun s => (s.path, s.file)) =
      (registered history).map fun s => (s.path, s.file) := by
  induction history using List.reverseRecOn with
  | nil => rfl
  | append_singleton history s ih =>
      rw [after, List.foldl_append, registered, List.filterMap_append, List.map_append,
        ← registered, ← ih, ← after]
      cases s with
      | register s => simp [step, SymbolTable.push]
      | change id f =>
          refine List.ext_getElem? fun i => ?_
          simp only [List.foldl_cons, List.foldl_nil, step, SymbolTable.modify,
            List.getElem?_map, Array.getElem?_toList, Array.getElem?_modify]
          split_ifs <;> simp [Function.comp_def, f.path, f.file]

/-- What is remembered for a name is what a scan finds under it. -/
lemma Indexed.matching (h : t.Indexed) (name : List String) (accept : SymbolKind → Bool) :
    (t.candidates name).filterMap (t.accepted? accept) = t.table.matching name accept := by
  rw [h name, List.filterMap_map, SymbolTable.matching, ← List.filterMap_eq_filter,
    ← List.filterMap_eq_filter, List.filterMap_filterMap]
  refine List.filterMap_congr fun entry hentry => ?_
  have hget := SymbolTable.get?_of_mem_toList hentry
  by_cases hname : entry.2.scopedName = name <;>
    by_cases haccept : accept entry.2.kind = true <;>
      simp [accepted?, hget, hname, haccept, Option.guard]

/-- **Searching what is remembered is scanning the table.** -/
lemma Indexed.lookup (h : t.Indexed) (name : List String) (file : Nat)
    (accept : SymbolKind → Bool) :
    t.lookup name file accept = t.table.lookup name file accept := by
  simp only [IndexedTable.lookup, SymbolTable.lookup, h.matching]

end IndexedTable

/-! ## What is found -/

namespace SymbolTable

variable {t : SymbolTable}

lemma getElem?_toList (t : SymbolTable) (id : Nat) :
    t.toList[id]? = (t.get? id).map (id, ·) := by
  simp [toList, get?, Function.comp_def]

/-- A scan finds no symbol if there is none. -/
lemma find?_toList_none (p : Symbol → Bool) : (t.toList.find? fun entry => p entry.2) = none ↔
    {id | ∃ s, t.get? id = some s ∧ p s = true} = ∅ := by
  rw [List.find?_eq_none, Set.eq_empty_iff_forall_notMem]
  constructor
  · rintro h id ⟨s, hs, hp⟩
    exact h _ (mem_toList hs) hp
  · exact fun h entry hentry hp => h entry.1 ⟨entry.2, get?_of_mem_toList hentry, hp⟩

/-- The first symbol that a scan finds has the least number. -/
lemma find?_toList (p : Symbol → Bool) {id : Nat} :
    (t.toList.find? fun entry => p entry.2).map (·.1) = some id ↔
      IsLeast {id | ∃ s, t.get? id = some s ∧ p s = true} id := by
  have hleast : ∀ entry, (t.toList.find? fun entry => p entry.2) = some entry →
      IsLeast {id | ∃ s, t.get? id = some s ∧ p s = true} entry.1 := by
    intro entry hfind
    obtain ⟨hp, i, hi, hentry, hbefore⟩ := List.find?_eq_some_iff_getElem.mp hfind
    obtain rfl : entry.1 = i := by
      have hat := List.getElem?_eq_getElem hi
      rw [hentry, getElem?_toList] at hat
      obtain ⟨s, -, hs⟩ := Option.map_eq_some_iff.mp hat
      rw [← hs]
    refine ⟨⟨entry.2, get?_of_mem_toList (hentry ▸ List.getElem_mem hi), hp⟩, ?_⟩
    rintro other ⟨s, hs, hother⟩
    by_contra hlt
    have hat := getElem?_toList t other
    rw [hs, List.getElem?_eq_getElem (by omega)] at hat
    have hfalse := hbefore other (by omega)
    rw [Option.some.inj hat] at hfalse
    simp [hother] at hfalse
  cases hfind : t.toList.find? fun entry => p entry.2 with
  | some entry =>
      simp only [Option.map_some, Option.some.injEq]
      exact ⟨fun h => h ▸ hleast entry hfind, fun h => (hleast entry hfind).unique h⟩
  | none =>
      rw [(find?_toList_none p).mp hfind]
      simp [IsLeast]

end SymbolTable

namespace IndexedTable

/-- The symbols that were registered under a scoped name, in some files, and whose kind is accepted
by now. -/
def fitting (history : List TableStep) (name : List String) (accept : SymbolKind → Bool)
    (files : Set Nat) : Set Nat :=
  {id | ∃ s now, (registered history)[id]? = some s ∧ (after history).table.get? id = some now ∧
    s.scopedName = name ∧ s.file ∈ files ∧ accept now.kind = true}

/-- **The symbol that a lookup prefers.** -/
inductive Chosen (history : List TableStep) (name : List String) (file : Nat)
    (accept : SymbolKind → Bool) (id : Nat) : Prop
  /-- The first one of the asking file. -/
  | own : IsLeast (fitting history name accept {file}) id → Chosen history name file accept id
  /-- The first one of any input. -/
  | input : fitting history name accept {file} = ∅ →
      IsLeast (fitting history name accept {ambientFile}ᶜ) id → Chosen history name file accept id
  /-- The first one of all. -/
  | any : fitting history name accept {file} = ∅ →
      fitting history name accept {ambientFile}ᶜ = ∅ →
      IsLeast (fitting history name accept Set.univ) id → Chosen history name file accept id

variable {history : List TableStep} {name : List String} {accept : SymbolKind → Bool}

/-- What fits can be read off the table. -/
lemma fitting_eq {within : Symbol → Bool} {files : Set Nat}
    (hwithin : ∀ s, within s = true ↔ s.file ∈ files) :
    {id | ∃ s, (after history).table.get? id = some s ∧
      ((s.scopedName == name && accept s.kind) && within s) = true} =
      fitting history name accept files := by
  ext id
  have hplaces : ((after history).table.get? id).map (fun s => (s.path, s.file)) =
      (registered history)[id]?.map fun s => (s.path, s.file) := by
    simpa [SymbolTable.get?] using congrArg (·[id]?) (after_registered history)
  simp only [fitting, Set.mem_ofPred_eq, Bool.and_eq_true, beq_iff_eq, hwithin]
  constructor
  · rintro ⟨now, hnow, ⟨hname, haccept⟩, hfile⟩
    rw [hnow, Option.map_some, eq_comm, Option.map_eq_some_iff] at hplaces
    obtain ⟨s, hs, hplace⟩ := hplaces
    obtain ⟨hpath, hsame⟩ := Prod.mk.inj hplace
    exact ⟨s, now, hs, hnow, (Symbol.scopedName_congr hpath hsame).trans hname, hsame ▸ hfile,
      haccept⟩
  · rintro ⟨s, now, hs, hnow, hname, hfile, haccept⟩
    rw [hnow, hs] at hplaces
    obtain ⟨hpath, hsame⟩ := Prod.mk.inj (Option.some.inj hplaces)
    exact ⟨now, hnow, ⟨(Symbol.scopedName_congr hpath hsame).trans hname, haccept⟩,
      hsame ▸ hfile⟩

/-- What a scan of some files finds is the first symbol that fits, or none if none fits. -/
lemma find?_fitting (history : List TableStep) (name : List String) (accept : SymbolKind → Bool)
    (within : Symbol → Bool) (files : Set Nat)
    (hwithin : ∀ s, within s = true ↔ s.file ∈ files) :
    (∀ id, (((after history).table.matching name accept).find? fun entry =>
      within entry.2).map (·.1) = some id ↔ IsLeast (fitting history name accept files) id) ∧
    (((after history).table.matching name accept).find? (fun entry => within entry.2) = none ↔
      fitting history name accept files = ∅) := by
  have hscan : ((after history).table.matching name accept).find? (fun entry => within entry.2) =
      (after history).table.toList.find? fun entry =>
        (entry.2.scopedName == name && accept entry.2.kind) && within entry.2 := by
    rw [SymbolTable.matching, List.find?_filter]
    simp only [Bool.decide_and, Bool.decide_eq_true]
  rw [hscan, ← fitting_eq hwithin]
  let p : Symbol → Bool := fun s => (s.scopedName == name && accept s.kind) && within s
  exact ⟨fun id => SymbolTable.find?_toList p, SymbolTable.find?_toList_none p⟩

/-- **Looking up a name**, after any history: searching what is remembered gives what scanning the
table gives, which is the preferred symbol, and gives nothing only if nothing fits. -/
theorem lookup_chosen (history : List TableStep) (name : List String) (file : Nat)
    (accept : SymbolKind → Bool) :
    (after history).lookup name file accept = (after history).table.lookup name file accept ∧
    (∀ id, (after history).lookup name file accept = some id ↔
      Chosen history name file accept id) ∧
    ((after history).lookup name file accept = none ↔
      fitting history name accept Set.univ = ∅) := by
  obtain ⟨hown, hown'⟩ := find?_fitting history name accept (fun s => s.file == file) {file}
    (by simp)
  obtain ⟨hinput, hinput'⟩ := find?_fitting history name accept (fun s => !s.isAmbient)
    {ambientFile}ᶜ (by simp [Symbol.isAmbient])
  obtain ⟨hany, hany'⟩ := find?_fitting history name accept (fun _ => true) Set.univ (by simp)
  set found := (after history).table.matching name accept with hfound
  have hlookup : (after history).table.lookup name file accept =
      ((found.find? fun entry => entry.2.file == file).map (·.1)).or
        (((found.find? fun entry => !entry.2.isAmbient).map (·.1)).or
          ((found.find? fun _ => true).map (·.1))) := by
    have hor : ∀ a b : Option (Nat × Symbol), (a <|> b) = a.or b := fun a b => by cases a <;> rfl
    have hhead : found.find? (fun _ => true) = found.head? := by cases found <;> rfl
    rw [hhead, ← Option.map_or, ← Option.map_or, ← hor, ← hor]
    rfl
  rw [(after_indexed history).lookup]
  refine ⟨rfl, ?_⟩
  rw [hlookup]
  simp only [Option.or_eq_some_iff, Option.or_eq_none_iff, Option.map_eq_none_iff, hown, hinput,
    hany, hown', hinput', hany']
  refine ⟨fun id => ⟨?_, ?_⟩, fun h => h.2.2, fun h => ?_⟩
  · rintro (h | ⟨hnone, h | ⟨hnone', h⟩⟩)
    exacts [.own h, .input hnone h, .any hnone hnone' h]
  · rintro (h | ⟨hnone, h⟩ | ⟨hnone, hnone', h⟩)
    exacts [.inl h, .inr ⟨hnone, .inl h⟩, .inr ⟨hnone, .inr ⟨hnone', h⟩⟩]
  · have hsubset : ∀ files, fitting history name accept files = ∅ := fun files =>
      Set.subset_eq_empty (fun id hid => by
        obtain ⟨s, now, hs, hnow, hname, -, haccept⟩ := hid
        exact ⟨s, now, hs, hnow, hname, trivial, haccept⟩) h
    exact ⟨hsubset _, hsubset _, h⟩

end IndexedTable

/-! ## The tables of a run -/

/-- The catalogue has the table of a history. -/
def Catalogue.HasHistory (c : Catalogue) : Prop :=
  ∃ history, (IndexedTable.after history).table = c.table

namespace Catalogue.HasHistory

variable {c : Catalogue}

lemma snoc {history : List TableStep} (h : (IndexedTable.after history).table = c.table)
    (s : TableStep) : ∃ longer, (IndexedTable.after longer).table =
      ((⟨c.table, ∅⟩ : IndexedTable).step s).table := by
  refine ⟨history ++ [s], ?_⟩
  rw [IndexedTable.after, List.foldl_append, ← IndexedTable.after]
  cases s <;> simp [IndexedTable.step, h]

/-- A declaration registers a symbol, or gives one another kind, or does nothing to the table. -/
lemma declare (h : c.HasHistory) (place : Place) (name : String) (kind : SymbolKind)
    (span : Span) : (c.declare place name kind span).1.HasHistory := by
  obtain ⟨history, htable⟩ := h
  unfold Catalogue.declare
  dsimp only
  split
  · exact ⟨history, htable⟩
  · split
    · rename_i id _
      by_cases hkind : kind = .klass
      · subst hkind
        exact snoc htable (.change id (.kind .klass))
      · simpa [HasHistory, remember, hkind] using ⟨history, htable⟩
    · exact snoc htable (.register (newSymbol place name kind span))

/-- What fills a symbol in leaves it where it is declared. -/
lemma keepsDefining (module : String) : KeepsDefining HasHistory module := by
  intro c place name kind id f _ _ hf h
  obtain ⟨history, htable⟩ := h
  exact snoc htable (.change id
    ⟨f, fun s => (Symbol.of_bare (hf s)).2.2.2.2.1, fun s => (Symbol.of_bare (hf s)).2.2.1⟩)

lemma platform : Catalogue.HasHistory {} := by
  refine ⟨platformTypes.map fun type => .register (.external type.1 type.2), ?_⟩
  have hfold : ∀ (types : List (String × String)) (t : IndexedTable),
      ((types.map fun type => TableStep.register (.external type.1 type.2)).foldl
        IndexedTable.step t).table =
        types.foldl (fun t type => t.push (.external type.1 type.2)) t.table := by
    intro types
    induction types with
    | nil => exact fun t => rfl
    | cons type rest ih => exact fun t => ih (t.step (.register (.external type.1 type.2)))
  exact hfold platformTypes {}

lemma defineFiles : ∀ (files : List ReadFile) (c : Catalogue), c.HasHistory →
    (Interop.defineFiles c files).1.HasHistory
  | [], _, h => h
  | f :: rest, c, h => defineFiles rest _ <|
      defineAll_keeps (keepsDefining f.place.module) f.place ⟨c, []⟩ f.program.body rfl h

end Catalogue.HasHistory

/-- **The table of a run is the table of a history**, so that names are looked up in it as
`IndexedTable.lookup_chosen` says. -/
theorem collect_after (files : List ReadFile) :
    ∃ history, (IndexedTable.after history).table = (collect files).1 := by
  refine Catalogue.HasHistory.defineFiles files (declareFiles files) ?_
  exact declareFiles_keeps (P := fun _ c => c.HasHistory)
    (fun _ _ _ c place name kind span _ _ h => h.declare place name kind span) .platform

end Interop
