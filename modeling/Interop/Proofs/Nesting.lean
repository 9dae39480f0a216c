import Interop.Proofs.Declared
import Interop.Proofs.Modules

/-!
# Where symbols stand

A symbol is registered with the namespace around it and with a path.  The two say the same: the path
is the module of the file, then the names of the namespaces from the outside in, then the symbol's
own name.  A namespace is registered before what it contains, so every chain of them ends.

* `SymbolTable.Encloses` — the names of the namespaces around a place, the outermost first.
* `Catalogue.Nested` — every symbol stands where its path says, and its parent comes before it.
* `Catalogue.declare_cases` — all that one declaration can do to the table.
* **`declareFiles_nested`** — the first pass establishes `Catalogue.Nested`.
-/

namespace Interop

open Source

/-! ## Enclosing namespaces -/

/-- The names of the namespaces around a place, the outermost first. -/
inductive SymbolTable.Encloses (t : SymbolTable) : Option Nat → List String → Prop
  | top : Encloses t none []
  | inside {id : Nat} {s : Symbol} {names : List String} : t.get? id = some s →
      s.kind = .nameSpace → Encloses t s.parent names → Encloses t (some id) (names ++ [s.name])

namespace SymbolTable

variable {t u : SymbolTable}

lemma lt_size_of_get? {id : Nat} {s : Symbol} (h : t.get? id = some s) : id < t.size :=
  (Array.getElem?_eq_some_iff.mp h).1

/-- What encloses a place is known from the namespaces of a table. -/
lemma Encloses.mono (h : ∀ id s, t.get? id = some s → s.kind = .nameSpace →
      ∃ s', u.get? id = some s' ∧ s'.kind = .nameSpace ∧ s'.name = s.name ∧ s'.parent = s.parent)
    {parent : Option Nat} {names : List String} (he : t.Encloses parent names) :
    u.Encloses parent names := by
  induction he with
  | top => exact .top
  | inside hid hkind _ ih =>
      obtain ⟨s', hid', hkind', hname, hparent⟩ := h _ _ hid hkind
      rw [← hname]
      exact .inside hid' hkind' (hparent ▸ ih)

end SymbolTable

namespace Catalogue

/-! ## What one declaration does -/

variable {keys : List DeclKey} {files : List Nat} {c d : Catalogue}

/-- The symbol that a declaration gets when there is none for it. -/
def newSymbol (place : Place) (name : String) (kind : SymbolKind) (span : Span) : Symbol :=
  { name, kind, file := place.file, path := place.path name kind, parent := place.parent, span }

/-- **All that a declaration can do**: it belongs to a symbol that is there, which stays as it is or
becomes a class, or it gets a new symbol at the end of the table. -/
lemma declare_cases (h : c.Registered keys files) (place : Place) (name : String)
    (kind : SymbolKind) (span : Span) :
    (∃ s, c.table.get? (c.declare place name kind span).2 = some s ∧
      s.path = place.path name kind ∧ s.externalName = none ∧ s.kind.shared = kind.shared ∧
      ((c.declare place name kind span).1.table = c.table ∨
        (kind = .klass ∧ (c.declare place name kind span).1.table =
          c.table.modify (c.declare place name kind span).2 fun s => { s with kind := .klass }))) ∨
    ((c.declare place name kind span).2 = c.table.size ∧
      (c.declare place name kind span).1.table =
        c.table.push (newSymbol place name kind span)) := by
  cases hfound : c.find? (place.path name kind) kind with
  | some id =>
      obtain ⟨s, hs, hpath, hexternal, hshared⟩ := h.symbol _ _ _ hfound
      simp only [declare, hfound]
      exact Or.inl ⟨s, hs, hpath, hexternal, hshared, Or.inl trivial⟩
  | none =>
      cases hjoin : (partner? kind).bind (c.find? (place.path name kind)) with
      | none =>
          simp only [declare, hfound, hjoin]
          exact Or.inr ⟨rfl, rfl⟩
      | some id =>
          obtain ⟨other, hother, hid⟩ := Option.bind_eq_some_iff.mp hjoin
          obtain ⟨s, hs, hpath, hexternal, hshared⟩ := h.symbol _ _ _ hid
          have hkind : s.kind.shared = kind.shared := by
            cases kind <;> simp only [partner?, reduceCtorEq] at hother <;>
              obtain rfl := Option.some.inj hother <;> exact hshared
          simp only [declare, hfound, hjoin]
          refine Or.inl ⟨s, hs, hpath, hexternal, hkind, ?_⟩
          by_cases hklass : kind = .klass
          · exact Or.inr ⟨hklass, by simp [hklass, remember]⟩
          · exact Or.inl (by simp [hklass, remember])

/-- Namespaces stay as they are. -/
def Keeps (c d : Catalogue) : Prop :=
  ∀ id s, c.table.get? id = some s → s.kind = .nameSpace → d.table.get? id = some s

lemma Keeps.encloses (h : c.Keeps d) {parent : Option Nat} {names : List String}
    (he : c.table.Encloses parent names) : d.table.Encloses parent names :=
  he.mono fun id s hid hkind => ⟨s, h id s hid hkind, hkind, rfl, rfl⟩

lemma SymbolKind.shared_nameSpace {kind : SymbolKind} :
    kind.shared = .nameSpace ↔ kind = .nameSpace := by
  cases kind <;> simp [SymbolKind.shared]

lemma keeps_declare (h : c.Registered keys files) (place : Place) (name : String)
    (kind : SymbolKind) (span : Span) : c.Keeps (c.declare place name kind span).1 := by
  intro id s hid hkind
  rcases c.declare_cases h place name kind span with
    ⟨t, ht, -, -, hshared, htable | ⟨hklass, htable⟩⟩ | ⟨-, htable⟩
  · rw [htable]
    exact hid
  · rw [htable, SymbolTable.get?_modify]
    split_ifs with he
    · rw [he, hid] at ht
      obtain rfl := Option.some.inj ht
      rw [hkind, hklass] at hshared
      cases hshared
    · exact hid
  · rw [htable, SymbolTable.get?_push, if_neg (Nat.ne_of_lt (SymbolTable.lt_size_of_get? hid))]
    exact hid

/-! ## The invariant -/

/-- **Symbols stand where their paths say.**  `modules` holds the files and the modules in them. -/
structure Nested (modules : List (Nat × String)) (c : Catalogue) : Prop where
  distinct : (modules.map (·.2)).Nodup
  path : ∀ id s, c.table.get? id = some s → s.externalName = none →
    ∃ module names, (s.file, module) ∈ modules ∧ c.table.Encloses s.parent names ∧
      s.path.segments = module :: names ++ [s.name]
  parent : ∀ id s p, c.table.get? id = some s → s.parent = some p →
    p < id ∧ ∃ q, c.table.get? p = some q ∧ q.kind = .nameSpace ∧ q.file = s.file

/-- A place that fits a catalogue: the namespace around it is there, in the same file. -/
structure Fits (modules : List (Nat × String)) (c : Catalogue) (place : Place) : Prop where
  module : (place.file, place.module) ∈ modules
  encloses : c.table.Encloses place.parent place.names
  parent : ∀ p, place.parent = some p →
    ∃ q, c.table.get? p = some q ∧ q.kind = .nameSpace ∧ q.file = place.file

variable {modules : List (Nat × String)} {place : Place}

lemma Fits.keeps (h : c.Fits modules place) (hd : c.Keeps d) : d.Fits modules place where
  module := h.module
  encloses := hd.encloses h.encloses
  parent p hp := by
    obtain ⟨q, hq, hkind, hfile⟩ := h.parent p hp
    exact ⟨q, hd p q hq hkind, hkind, hfile⟩

/-- **Declaring keeps symbols where they stand.** -/
lemma Nested.declare (hc : c.Nested modules) (h : c.Registered keys files)
    (hfits : c.Fits modules place) (name : String) (kind : SymbolKind) (span : Span) :
    (c.declare place name kind span).1.Nested modules := by
  have hkeeps := keeps_declare h place name kind span
  -- a symbol of the new table is an old one, up to its kind, or the new one
  have hsymbol : ∀ id s, (c.declare place name kind span).1.table.get? id = some s →
      (∃ t, c.table.get? id = some t ∧ s.file = t.file ∧ s.parent = t.parent ∧ s.path = t.path ∧
        s.name = t.name ∧ s.externalName = t.externalName) ∨
      (id = c.table.size ∧ s = newSymbol place name kind span) := by
    intro id s hs
    rcases c.declare_cases h place name kind span with
      ⟨-, -, -, -, -, htable | ⟨-, htable⟩⟩ | ⟨-, htable⟩
    · rw [htable] at hs
      exact Or.inl ⟨s, hs, rfl, rfl, rfl, rfl, rfl⟩
    · rw [htable, SymbolTable.get?_modify] at hs
      split_ifs at hs
      · obtain ⟨t, ht, rfl⟩ := Option.map_eq_some_iff.mp hs
        exact Or.inl ⟨t, ht, rfl, rfl, rfl, rfl, rfl⟩
      · exact Or.inl ⟨s, hs, rfl, rfl, rfl, rfl, rfl⟩
    · rw [htable, SymbolTable.get?_push] at hs
      split_ifs at hs with hid
      · exact Or.inr ⟨hid, (Option.some.inj hs).symm⟩
      · exact Or.inl ⟨s, hs, rfl, rfl, rfl, rfl, rfl⟩
  refine ⟨hc.distinct, ?_, ?_⟩
  · intro id s hs hexternal
    rcases hsymbol id s hs with ⟨t, ht, hfile, hparent, hpath, hname, hext⟩ | ⟨-, rfl⟩
    · obtain ⟨module, names, hmodule, hencloses, hsegments⟩ := hc.path id t ht (hext ▸ hexternal)
      rw [hfile, hparent, hpath, hname]
      exact ⟨module, names, hmodule, hkeeps.encloses hencloses, hsegments⟩
    · exact ⟨place.module, place.names, hfits.module, hkeeps.encloses hfits.encloses, rfl⟩
  · intro id s p hs hp
    rcases hsymbol id s hs with ⟨t, ht, hfile, hparent, -⟩ | ⟨rfl, rfl⟩
    · obtain ⟨hlt, q, hq, hkind, hqfile⟩ := hc.parent id t p ht (hparent ▸ hp)
      exact ⟨hlt, q, hkeeps p q hq hkind, hkind, hqfile.trans hfile.symm⟩
    · obtain ⟨q, hq, hkind, hqfile⟩ := hfits.parent p hp
      exact ⟨SymbolTable.lt_size_of_get? hq, q, hkeeps p q hq hkind, hkind, hqfile⟩

/-- **Inside a namespace.**  The symbol of a namespace stands around what is declared in it, also
when the namespace was opened before. -/
lemma Fits.enter (hfits : c.Fits modules place) (hc : c.Nested modules)
    (h : c.Registered keys files) (name : String) (span : Span) :
    (c.declare place name .nameSpace span).1.Fits modules
      (place.enter (c.declare place name .nameSpace span).2 name) := by
  have hkeeps := keeps_declare h place name .nameSpace span
  obtain ⟨s, hs, hkind, hfile, hname, hencloses⟩ : ∃ s,
      (c.declare place name .nameSpace span).1.table.get?
        (c.declare place name .nameSpace span).2 = some s ∧ s.kind = .nameSpace ∧
      s.file = place.file ∧ s.name = name ∧
      (c.declare place name .nameSpace span).1.table.Encloses s.parent place.names := by
    rcases c.declare_cases h place name .nameSpace span with
      ⟨s, hs, hpath, hexternal, hshared, -⟩ | ⟨hid, htable⟩
    · have hkind : s.kind = .nameSpace := SymbolKind.shared_nameSpace.mp hshared
      obtain ⟨module, names, hmodule, hencloses, hsegments⟩ := hc.path _ s hs hexternal
      rw [hpath] at hsegments
      obtain ⟨rfl, hrest⟩ := List.cons.inj hsegments
      obtain ⟨rfl, hlast⟩ := List.append_inj' hrest rfl
      have hsame : (s.file, place.module) = (place.file, place.module) :=
        List.inj_on_of_nodup_map hc.distinct hmodule hfits.module rfl
      exact ⟨s, hkeeps _ s hs hkind, hkind, (Prod.mk.inj hsame).1,
        (List.singleton_inj.mp hlast).symm, hkeeps.encloses hencloses⟩
    · refine ⟨newSymbol place name .nameSpace span, ?_, rfl, rfl, rfl,
        hkeeps.encloses hfits.encloses⟩
      rw [htable, hid, SymbolTable.get?_push, if_pos rfl]
  refine ⟨hfits.module, ?_, ?_⟩
  · have hinside := SymbolTable.Encloses.inside hs hkind hencloses
    rw [hname] at hinside
    exact hinside
  · intro p hp
    obtain rfl := Option.some.inj hp
    exact ⟨s, hs, hkind, hfile⟩

end Catalogue

/-! ## The first pass -/

section

open Catalogue

variable {files : List Nat} {modules : List (Nat × String)}

/-- What declaring relies on besides `Catalogue.Nested`. -/
def Known (files : List Nat) (c : Catalogue) : Prop :=
  ∃ keys, c.Registered keys files

/-- The first pass keeps what it relies on, and namespaces. -/
lemma keepsDeclaring_keeps {file : Nat} (hfile : file ∈ files) (spans : List Span)
    (c : Catalogue) : KeepsDeclaring (fun _ d => Known files d ∧ c.Keeps d) file spans := by
  rintro - d place name kind span rfl - ⟨⟨keys, hd⟩, hkeeps⟩
  exact ⟨⟨_, hd.declare kind span hfile⟩,
    fun id s hid hkind => keeps_declare hd place name kind span id s (hkeeps id s hid hkind) hkind⟩

lemma declareSimple_nested {place : Place} {c : Catalogue} (hfile : place.file ∈ files)
    (hknown : Known files c) (hc : c.Nested modules) (hfits : c.Fits modules place)
    (d : Declaration) : (declareSimple place c d).Nested modules := by
  obtain ⟨keys, hc'⟩ := hknown
  cases d with
  | interface node => exact hc.declare hc' hfits _ _ _
  | «alias» node => exact hc.declare hc' hfits _ _ _
  | enum node => exact hc.declare hc' hfits _ _ _
  | klass node =>
      simp only [declareSimple]
      cases node.name with
      | none => exact hc
      | some name => exact hc.declare hc' hfits _ _ _
  | function node =>
      simp only [declareSimple]
      cases node.name with
      | none => exact hc
      | some name => exact hc.declare hc' hfits _ _ _
  | «variables» kind nodes =>
      simp only [declareSimple]
      induction nodes generalizing c keys with
      | nil => exact hc
      | cons node rest ih =>
          rw [List.foldl_cons]
          cases node.binding.name? with
          | none => exact ih hc hfits keys hc'
          | some name =>
              exact ih (hc.declare hc' hfits _ _ _)
                (hfits.keeps (keeps_declare hc' place name .variable node.span)) _
                (hc'.declare .variable node.span hfile)
  | nameSpace span name body => exact hc

mutual

lemma declareStatement_nested : ∀ (place : Place) (c : Catalogue) (s : Statement),
    place.file ∈ files → Known files c → c.Nested modules → c.Fits modules place →
      (declareStatement place c s).Nested modules
  | place, c, .declaration _ d, hfile, hknown, hc, hfits =>
      declareDeclaration_nested place c d hfile hknown hc hfits
  | _, _, .global _, _, _, hc, _ => hc
  | _, _, .exportAssignment _, _, _, hc, _ => hc
  | _, _, .otherExport _, _, _, hc, _ => hc
  | _, _, .imports _, _, _, hc, _ => hc
  | _, _, .block _, _, _, hc, _ => hc
  | _, _, .compound _ _, _, _, hc, _ => hc

lemma declareDeclaration_nested : ∀ (place : Place) (c : Catalogue) (d : Declaration),
    place.file ∈ files → Known files c → c.Nested modules → c.Fits modules place →
      (declareDeclaration place c d).Nested modules
  | place, c, .nameSpace span name body, hfile, hknown, hc, hfits => by
      simp only [declareDeclaration]
      cases nestingName? name with
      | none => exact declareAll_nested place c body hfile hknown hc hfits
      | some inner =>
          obtain ⟨keys, hc'⟩ := hknown
          exact declareAll_nested _ _ body hfile ⟨_, hc'.declare .nameSpace span hfile⟩
            (hc.declare hc' hfits _ _ _) (hfits.enter hc hc' inner span)
  | _, _, .interface node, hfile, hknown, hc, hfits =>
      declareSimple_nested hfile hknown hc hfits (.interface node)
  | _, _, .klass node, hfile, hknown, hc, hfits =>
      declareSimple_nested hfile hknown hc hfits (.klass node)
  | _, _, .alias node, hfile, hknown, hc, hfits =>
      declareSimple_nested hfile hknown hc hfits (.alias node)
  | _, _, .enum node, hfile, hknown, hc, hfits =>
      declareSimple_nested hfile hknown hc hfits (.enum node)
  | _, _, .function node, hfile, hknown, hc, hfits =>
      declareSimple_nested hfile hknown hc hfits (.function node)
  | _, _, .variables kind nodes, hfile, hknown, hc, hfits =>
      declareSimple_nested hfile hknown hc hfits (.variables kind nodes)

/-- Declaring statements keeps symbols where they stand. -/
lemma declareAll_nested : ∀ (place : Place) (c : Catalogue) (statements : List Statement),
    place.file ∈ files → Known files c → c.Nested modules → c.Fits modules place →
      (declareAll place c statements).Nested modules
  | _, _, [], _, _, hc, _ => hc
  | place, c, s :: rest, hfile, hknown, hc, hfits => by
      obtain ⟨hknown', hkeeps⟩ := declareStatement_keeps
        (keepsDeclaring_keeps hfile (statementSpans s) c) place c s [] rfl (List.Subset.refl _)
        ⟨hknown, fun _ _ h _ => h⟩
      exact declareAll_nested place _ rest hfile hknown'
        (declareStatement_nested place c s hfile hknown hc hfits) (hfits.keeps hkeeps)

end

end

/-- The file and the module of each file of a run. -/
def modulesOf (files : List ReadFile) : List (Nat × String) :=
  files.map fun f => (f.place.file, f.place.module)

/-- A file whose statements stand in no namespace. -/
def ReadFile.IsTop (f : ReadFile) : Prop :=
  f.place.parent = none ∧ f.place.names = []

/-- **The first pass** registers every symbol where its path says. -/
theorem declareFiles_nested (files : List ReadFile) (htop : ∀ f ∈ files, f.IsTop)
    (distinct : (files.map (·.place.module)).Nodup) :
    (declareFiles files).Nested (modulesOf files) := by
  have hdistinct : ((modulesOf files).map (·.2)).Nodup := by
    simpa only [modulesOf, List.map_map, Function.comp_def] using distinct
  have hfold : ∀ (rest : List ReadFile) (c : Catalogue), (∀ f ∈ rest, f ∈ files) →
      Known (files.map (·.place.file)) c → c.Nested (modulesOf files) →
        (rest.foldl (fun c f => declareAll f.place c f.program.body) c).Nested
          (modulesOf files) := by
    intro rest
    induction rest with
    | nil => intro c _ _ hc; exact hc
    | cons f rest ih =>
        intro c hfiles hknown hc
        have hf := hfiles f List.mem_cons_self
        have hfile : f.place.file ∈ files.map (·.place.file) := List.mem_map_of_mem hf
        obtain ⟨hparent, hnames⟩ := htop f hf
        have hfits : c.Fits (modulesOf files) f.place :=
          ⟨List.mem_map_of_mem hf, by rw [hparent, hnames]; exact .top, by simp [hparent]⟩
        have hknown' := (declareAll_keeps
          (keepsDeclaring_keeps hfile (spansOf f.program.body) c) f.place c f.program.body [] rfl
          (List.Subset.refl _) ⟨hknown, fun _ _ h _ => h⟩).1
        exact ih _ (fun g hg => hfiles g (List.mem_cons_of_mem _ hg)) hknown'
          (declareAll_nested f.place c f.program.body hfile hknown hc hfits)
  refine hfold files {} (fun _ h => h) ⟨[], Catalogue.registered_platform⟩ ⟨hdistinct, ?_, ?_⟩
  · intro id s hs hexternal
    obtain ⟨name, target, rfl⟩ := SymbolTable.platform_external hs
    cases hexternal
  · intro id s p hs hp
    obtain ⟨name, target, rfl⟩ := SymbolTable.platform_external hs
    cases hp

end Interop
