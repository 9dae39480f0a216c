import Interop.Proofs.Renumbering.Definitions
import Interop.Proofs.Renumbering.Libraries

/-!
# The symbol table of a run is closed

A type may refer to a symbol only if the symbol is there and names a type.  The first pass registers
symbols without types.  The second one registers none, and the types that it fills in refer to
symbols that were found by the name of a type, or to the class or interface around them.  So writing
never meets a reference that leads nowhere, and all that it reports by itself is that an alias comes
up in its own expansion.

* `declareFiles_symbols` — what holds of every symbol of the first pass.
* `Renumbering.Views.same` — a catalogue of the first pass and itself.
* `collect_closed` — the table of a run is closed.
* **`planRun_closed`** — with what this means for the libraries of a run.
-/

namespace Interop

open Source

/-! ## The first pass -/

/-- One declaration registers a new symbol or none, and may make an interface a class. -/
lemma Catalogue.declare_symbols {p : Symbol → Prop}
    (hklass : ∀ s : Symbol, p s → p { s with kind := .klass }) {c : Catalogue}
    (hc : ∀ id s, c.table.get? id = some s → p s) {place : Place} {name : String}
    {kind : SymbolKind} {span : Span} (hnew : p (newSymbol place name kind span)) :
    ∀ id s, (c.declare place name kind span).1.table.get? id = some s → p s := by
  intro id s hs
  unfold Catalogue.declare at hs
  dsimp only at hs
  split at hs
  · exact hc id s hs
  · split at hs
    · simp only [Catalogue.remember] at hs
      split_ifs at hs
      · rw [SymbolTable.get?_modify] at hs
        split_ifs at hs
        · obtain ⟨t, ht, rfl⟩ := Option.map_eq_some_iff.mp hs
          exact hklass t (hc id t ht)
        · exact hc id s hs
      · exact hc id s hs
    · simp only [Catalogue.register, Catalogue.remember, SymbolTable.get?_push] at hs
      split_ifs at hs
      · obtain rfl := Option.some.inj hs
        exact hnew
      · exact hc id s hs

/-- **What holds of the symbols of the first pass**: what holds of platform types and of new symbols,
and of a class if it holds of an interface. -/
lemma declareFiles_symbols {p : Symbol → Prop}
    (hklass : ∀ s : Symbol, p s → p { s with kind := .klass })
    (hnew : ∀ place name kind span, p (Catalogue.newSymbol place name kind span))
    (hexternal : ∀ name target, p (.external name target)) (files : List ReadFile) {id : Nat}
    {s : Symbol} (hs : (declareFiles files).table.get? id = some s) : p s := by
  refine declareFiles_keeps (P := fun _ c => ∀ id s, c.table.get? id = some s → p s)
    (fun _ _ keys c place name kind span _ _ hc =>
      Catalogue.declare_symbols hklass hc (hnew place name kind span)) ?_ id s hs
  intro id s hs
  obtain ⟨name, target, rfl⟩ := SymbolTable.platform_external hs
  exact hexternal name target

/-- **The first pass registers symbols without types.** -/
lemma declareFiles_bare (files : List ReadFile) {id : Nat} {s : Symbol}
    (hs : (declareFiles files).table.get? id = some s) : s.bare = s := by
  refine declareFiles_symbols (p := fun s => s.bare = s) (fun s h => ?_) (fun _ _ _ _ => rfl)
    (fun _ _ => rfl) files hs
  rw [← h]
  rfl

/-- A symbol without types refers to no symbol. -/
lemma Symbol.symbols_of_bare {s : Symbol} (h : s.bare = s) : s.symbols = [] := by
  rw [← h]
  rfl

/-! ### Names of types -/

/-- The key of a declaration in a module.  No declaration declares a type parameter. -/
def DeclKey.InModule (module : String) (key : DeclKey) : Prop :=
  key.2 ≠ .typeParameter ∧ ∃ names name, key = keyOf module names name key.2

lemma simpleKeys_inModule {module : String} {names : List String} {d : Declaration} {key : DeclKey}
    (h : key ∈ simpleKeys module names d) : key.InModule module := by
  obtain ⟨⟨name, kind⟩, hname, rfl⟩ := List.mem_map.mp h
  refine ⟨?_, names, name, rfl⟩
  show kind ≠ .typeParameter
  cases d <;> simp only [namesOf, List.mem_singleton, List.mem_map, Prod.mk.injEq,
    List.not_mem_nil] at hname
  case interface | «alias» | enum => simp [hname.2]
  case klass | function | «variables» =>
    obtain ⟨-, -, -, rfl⟩ := hname
    simp

mutual

lemma statementKeys_inModule {module : String} {key : DeclKey} :
    ∀ {names : List String} {s : Statement},
    key ∈ statementKeys module names s → key.InModule module
  | _, .declaration _ _, h => declarationKeys_inModule h
  | _, .global _, h => by cases h
  | _, .exportAssignment _, h => by cases h
  | _, .otherExport _, h => by cases h
  | _, .imports _, h => by cases h
  | _, .block _, h => by cases h
  | _, .compound _ _, h => by cases h

lemma declarationKeys_inModule {module : String} {key : DeclKey} :
    ∀ {names : List String} {d : Declaration},
      key ∈ declarationKeys module names d → key.InModule module
  | names, .nameSpace _ name body, h => by
      simp only [declarationKeys] at h
      cases hname : nestingName? name with
      | none =>
          rw [hname] at h
          exact keysOf_inModule h
      | some inner =>
          rw [hname] at h
          rcases List.mem_cons.mp h with rfl | h
          · exact ⟨by simp [keyOf], names, inner, rfl⟩
          · exact keysOf_inModule h
  | _, .interface _, h => simpleKeys_inModule h
  | _, .klass _, h => simpleKeys_inModule h
  | _, .alias _, h => simpleKeys_inModule h
  | _, .enum _, h => simpleKeys_inModule h
  | _, .function _, h => simpleKeys_inModule h
  | _, .variables _ _, h => simpleKeys_inModule h

/-- What statements declare is declared in their module. -/
lemma keysOf_inModule {module : String} {key : DeclKey} :
    ∀ {names : List String} {statements : List Statement},
      key ∈ keysOf module names statements → key.InModule module
  | _, s :: rest, h => by
      rcases List.mem_append.mp h with h | h
      · exact statementKeys_inModule h
      · exact keysOf_inModule h

end

/-- What is found by the name of a type names one. -/
lemma SymbolTable.get?_of_lookup {t : SymbolTable} {name : List String} {file id : Nat}
    {accept : SymbolKind → Bool} (h : t.lookup name file accept = some id) :
    ∃ s, t.get? id = some s ∧ accept s.kind = true := by
  obtain ⟨⟨found, s⟩, hfirst, rfl⟩ := Option.map_eq_some_iff.mp h
  have hmem : (found, s) ∈ t.matching name accept := by
    have hor : ∀ a b : Option (Nat × Symbol), (a <|> b) = a.or b := fun a b => by cases a <;> rfl
    rw [hor, hor, Option.or_eq_some_iff, Option.or_eq_some_iff] at hfirst
    rcases hfirst with hfirst | ⟨-, hfirst | ⟨-, hfirst⟩⟩
    · exact List.mem_of_find?_eq_some hfirst
    · exact List.mem_of_find?_eq_some hfirst
    · exact List.mem_of_head? hfirst
  obtain ⟨hmem, haccept⟩ := List.mem_filter.mp hmem
  simp only [Bool.and_eq_true] at haccept
  exact ⟨s, SymbolTable.get?_of_mem_toList hmem, haccept.2⟩

/-- A symbol that stands for a type is a class, an interface, an alias or an enum. -/
lemma declareFiles_isTypeSymbol (files : List ReadFile) {id : Nat} {s : Symbol}
    (hs : (declareFiles files).table.get? id = some s) (hkind : s.kind.isType = true) :
    (declareFiles files).table.IsTypeSymbol id := by
  have hregistered := declareFiles_registered files
  have hparam : s.kind ≠ .typeParameter := by
    by_cases hexternal : s.externalName = none
    · have hkey := (hregistered.key s.path s.kind).mp (by
        rw [hregistered.found id s hs hexternal]
        rfl)
      obtain ⟨f, -, hkey⟩ := List.mem_flatMap.mp hkey
      exact (keysOf_inModule hkey).1
    · rw [hregistered.external id s hs hexternal]
      simp
  refine ⟨s, hs, ?_⟩
  cases hcase : s.kind <;> simp_all [SymbolKind.isType]

/-- **What a file sees of a catalogue of the first pass**, compared with itself. -/
lemma Renumbering.Views.same (files : List ReadFile) (file : Nat) (module : String) :
    Renumbering.same.Views file module (declareFiles files) (declareFiles files) where
  find? _ _ _ := Option.map_id'.symm
  found path kind id hid := by
    obtain ⟨s, hs, -⟩ := (declareFiles_registered files).symbol path kind id hid
    exact ⟨s, hs⟩
  klass path kind id hkind hid := by
    obtain ⟨s, hs, -, -, hshared⟩ := (declareFiles_registered files).symbol path kind id hid
    refine declareFiles_isTypeSymbol files hs ?_
    rw [hkind] at hshared
    cases hcase : s.kind <;> simp_all [SymbolKind.shared, SymbolKind.isType]
  lookup _ := Option.map_id'.symm
  known name id hid := by
    obtain ⟨s, hs, hkind⟩ := SymbolTable.get?_of_lookup hid
    exact declareFiles_isTypeSymbol files hs hkind

/-! ## The second pass -/

lemma SymbolTable.knows_congr {t u : SymbolTable} (h : u.bare = t.bare) {ids : List Nat}
    (hids : t.Knows ids) : u.Knows ids := by
  intro id hid
  obtain ⟨s, hs, hkind⟩ := hids id hid
  obtain ⟨s', hs', hbare⟩ := SymbolTable.get?_congr h.symm hs
  obtain ⟨-, hsame, -⟩ := Symbol.of_bare hbare
  exact ⟨s', hs', hsame ▸ hkind⟩

/-- **The symbol table of a run is closed.** -/
theorem collect_closed (files : List ReadFile) (hmodules : (files.map (·.place.module)).Nodup) :
    (collect files).1.Closed := by
  have hregistered := declareFiles_registered files
  intro id s hs
  refine SymbolTable.knows_congr (collect_bare files) ?_
  by_cases howned : ∃ f ∈ files, (declareFiles files).Owns f.place.module id
  · obtain ⟨f, hf, howns⟩ := howned
    -- the symbol is as the definition of its own file left it
    have heach := defineFiles_each hregistered files hmodules
      fun f _ => Catalogue.Untouched.refl _ _
    obtain ⟨i, hi, rfl⟩ := List.mem_iff_getElem.mp hf
    obtain ⟨e, huntouched, -, hown⟩ := heach.get hi (heach.length_eq ▸ hi)
    have hstart : Renumbering.same.Definitions files[i].place.module (declareFiles files)
        (declareFiles files) ⟨e, []⟩ ⟨e, []⟩ := by
      refine ⟨huntouched.declared, huntouched.declared, huntouched.bare, huntouched.bare, rfl, ?_⟩
      intro other u hother hu
      refine ⟨by rw [Symbol.renumber_same]; exact hu, ?_⟩
      rw [huntouched.own other hother] at hu
      rw [Symbol.symbols_of_bare (declareFiles_bare files hu)]
      exact SymbolTable.knows_nil _
    have hend := Renumbering.define_statements (.same files files[i].place.file _)
      files[i].program.body ⟨rfl, rfl, rfl, rfl, rfl, rfl⟩ hstart
    exact (hend.symbol id s howns ((hown id howns).symm.trans hs)).2
  · have hsame := (defineFiles_fills files (declareFiles files)).others id
      fun module hmodule howns => by
      obtain ⟨f, hf, rfl⟩ := List.mem_map.mp hmodule
      exact howned ⟨f, hf, howns⟩
    have hs' : (declareFiles files).table.get? id = some s := hsame.symm.trans hs
    rw [Symbol.symbols_of_bare (declareFiles_bare files hs')]
    exact SymbolTable.knows_nil _

/-! ## Runs -/

/-- **The symbol table of a run is closed.**  The second pass registers no symbol, and changes
neither the kind nor the place of any.  Then every symbol that occurs in a type, at any depth, is
there and is a class, an interface, an alias or an enum.  So whatever is reported in a library, or
ends the work on it, was noted when the types of one of its files were lowered, or says that an alias
is recursive. -/
theorem planRun_closed (files : List SourceFile) (programs : List Program)
    (options : GenerationOptions) :
    let declared := (declareFiles (placeFiles files programs)).table
    let plan := planRun options.merge files programs
    plan.table.size = declared.size ∧ plan.table.bare = declared.bare ∧
      (∀ id s, plan.table.get? id = some s → ∀ ref ∈ s.symbols,
        ∃ target, plan.table.get? ref = some target ∧ (target.kind = .klass ∨
          target.kind = .interface ∨ target.kind = .alias ∨ target.kind = .enum)) ∧
      ∃ session, Session.prepare plan.table options plan.libraries = .ok session ∧
        List.Forall₂ (fun library unit =>
            (∀ d ∈ unit.diagnostics, ∃ f ∈ library.files, d.path = f.path ∧
              (d.diagnostic ∈ f.notes ∨ plan.table.ReportsRecursion d.diagnostic)) ∧
            ∀ d, unit.failure = some (.aborted d) →
              ∃ f ∈ library.files, d ∈ f.notes ∨ plan.table.ReportsRecursion d)
          plan.libraries ((writeLibraries 0 plan.libraries).run session).1 := by
  intro declared plan
  have hbare : plan.table.bare = declared.bare := collect_bare (placeFiles files programs)
  have hclosed : plan.table.Closed :=
    collect_closed (placeFiles files programs) placeFiles_modules_nodup
  obtain ⟨session, hprepare, hready⟩ := prepare_session plan.table options plan.libraries
  refine ⟨SymbolTable.size_congr hbare, hbare, hclosed, session, hprepare, ?_⟩
  refine (hready.writeLibraries_expected hclosed).imp ?_
  rintro library unit ⟨hdiagnostics, hfailure⟩
  exact ⟨hdiagnostics, fun d hd => hfailure _ hd d rfl⟩

end Interop
