import Interop.Proofs.Filling
import Interop.Proofs.Renumbering.Lowering

/-!
# The second pass does not depend on numbers

Two runs of the second pass over one file, from catalogues that correspond as far as the file can
see, fill its symbols in alike and note the same.  What other files have filled in before has no
effect: a name is looked up among symbols as they were registered, and a file fills in no symbols
but its own.

* `Renumbering.Views` — catalogues that correspond as far as one file can see.
* `Renumbering.Definitions` — how far two runs of the second pass have come.
* **`define_statements`** — defining the statements of a file keeps this.
-/

namespace Interop

open Source

namespace Renumbering

/-- Places of a file that correspond, up to the namespaces that symbols are registered with. -/
structure Places (ρ : Renumbering) (file : Nat) (module : String) (place place' : Place) : Prop where
  inFile : place.file = file
  inFile_right : place'.file = ρ.file file
  inModule : place.module = module
  inModule_right : place'.module = module
  source : place'.source = place.source
  names : place'.names = place.names

/-- **Catalogues that correspond as far as one file can see.**  The declarations of its module lead
to symbols that correspond, and so do the names of types that it may use. -/
structure Views (ρ : Renumbering) (file : Nat) (module : String) (c c' : Catalogue) : Prop where
  find? : ∀ path kind, path.segments.head? = some module →
    c'.find? path kind = (c.find? path kind).map ρ.symbol
  found : ∀ path kind id, c.find? path kind = some id → ∃ s, c.table.get? id = some s
  klass : ∀ path kind id, kind.shared = .klass → c.find? path kind = some id →
    c.table.IsTypeSymbol id
  lookup : ∀ name, c'.table.lookup name (ρ.file file) SymbolKind.isType =
    (c.table.lookup name file SymbolKind.isType).map ρ.symbol
  known : ∀ name id, c.table.lookup name file SymbolKind.isType = some id →
    c.table.IsTypeSymbol id

/-- **How far two runs have come.**  Nothing is registered, the same is noted, and the symbols of the
module correspond. -/
structure Definitions (ρ : Renumbering) (module : String) (c c' : Catalogue) (d d' : Definition) :
    Prop where
  declared : d.catalogue.declared = c.declared
  declared_right : d'.catalogue.declared = c'.declared
  bare : d.catalogue.table.bare = c.table.bare
  bare_right : d'.catalogue.table.bare = c'.table.bare
  notes : d'.notes = d.notes
  symbol : ∀ id s, c.Owns module id → d.catalogue.table.get? id = some s →
    d'.catalogue.table.get? (ρ.symbol id) = some (s.renumber ρ) ∧ c.table.Knows s.symbols

/-- Members and bases that correspond. -/
def Parts (ρ : Renumbering) (t : SymbolTable) (a a' : List Member × List Ty) : Prop :=
  List.Forall₂ (ρ.Members t) a.1 a'.1 ∧ List.Forall₂ (ρ.Types t) a.2 a'.2

/-- **A change that fills a symbol in** and does the same to its counterpart. -/
structure Fills (ρ : Renumbering) (t : SymbolTable) (f f' : Symbol → Symbol) : Prop where
  bare : ∀ s, (f s).bare = s.bare
  bare_right : ∀ s, (f' s).bare = s.bare
  renumber : ∀ s, f' (s.renumber ρ) = (f s).renumber ρ
  knows : ∀ s, t.Knows s.symbols → t.Knows (f s).symbols

variable {ρ : Renumbering} {file : Nat} {module : String} {c c' : Catalogue} {d d' : Definition}
  {place place' : Place}

lemma Places.path (h : ρ.Places file module place place') (name : String) (kind : SymbolKind) :
    place'.path name kind = place.path name kind := by
  rw [Place.path, Place.path, h.inModule, h.inModule_right, h.names]

lemma Places.enter (h : ρ.Places file module place place') (id id' : Nat) (name : String) :
    ρ.Places file module (place.enter id name) (place'.enter id' name) :=
  ⟨h.inFile, h.inFile_right, h.inModule, h.inModule_right, h.source, congrArg (· ++ [name]) h.names⟩

/-- The types of an object inside its own body correspond. -/
lemma types_selfType {t : SymbolTable} {id : Nat} (hid : t.IsTypeSymbol id)
    (typeParams : List String) :
    ρ.Types t (Interop.selfType id typeParams) (Interop.selfType (ρ.symbol id) typeParams) := by
  refine ⟨by simp [Interop.selfType, Ty.mapSymbols, Function.comp_def], ?_⟩
  refine SymbolTable.knows_cons.mpr ⟨hid, ?_⟩
  rw [Ty.symbolsAll_eq, SymbolTable.knows_flatMap]
  intro ty hty
  obtain ⟨param, -, rfl⟩ := List.mem_map.mp hty
  exact t.knows_nil

/-! ## One symbol -/

namespace Fills

variable {t : SymbolTable} {f f' g g' : Symbol → Symbol}

/-- One change after another. -/
lemma comp (h : ρ.Fills t f f') (k : ρ.Fills t g g') :
    ρ.Fills t (fun s => g (f s)) fun s => g' (f' s) where
  bare s := (k.bare _).trans (h.bare s)
  bare_right s := (k.bare_right _).trans (h.bare_right s)
  renumber s := by rw [h.renumber, k.renumber]
  knows s hs := k.knows _ (h.knows s hs)

lemma typeParams (change : List String → List String) : ρ.Fills t
    (fun s => { s with typeParams := change s.typeParams })
    fun s => { s with typeParams := change s.typeParams } where
  bare _ := rfl
  bare_right _ := rfl
  renumber _ := rfl
  knows _ hs := hs

lemma hasSuperclass : ρ.Fills t (fun s => { s with hasSuperclass := true })
    fun s => { s with hasSuperclass := true } where
  bare _ := rfl
  bare_right _ := rfl
  renumber _ := rfl
  knows _ hs := hs

lemma aliased {body body' : Ty} (h : ρ.Types t body body') :
    ρ.Fills t (fun s => { s with aliased := some body })
      fun s => { s with aliased := some body' } where
  bare _ := rfl
  bare_right _ := rfl
  renumber s := by rw [h.1]; rfl
  knows s hs := by
    obtain ⟨-, hmembers, hbases⟩ := SymbolTable.knows_symbols.mp hs
    refine SymbolTable.knows_symbols.mpr ⟨fun other hother => ?_, hmembers, hbases⟩
    obtain rfl := Option.some.inj hother
    exact h.2

lemma members {ms ms' : List Member} (h : List.Forall₂ (ρ.Members t) ms ms') :
    ρ.Fills t (fun s => { s with members := s.members ++ ms })
      fun s => { s with members := s.members ++ ms' } where
  bare _ := rfl
  bare_right _ := rfl
  renumber s := by
    rw [(Members.all h).1]
    simp [Symbol.renumber]
  knows s hs := by
    obtain ⟨haliased, hmembers, hbases⟩ := SymbolTable.knows_symbols.mp hs
    refine SymbolTable.knows_symbols.mpr ⟨haliased, ?_, hbases⟩
    rw [Member.symbolsAll_eq, List.flatMap_append, ← Member.symbolsAll_eq, ← Member.symbolsAll_eq]
    exact SymbolTable.knows_append.mpr ⟨hmembers, (Members.all h).2⟩

lemma basesAfter {tys tys' : List Ty} (h : List.Forall₂ (ρ.Types t) tys tys') :
    ρ.Fills t (fun s => { s with bases := s.bases ++ tys })
      fun s => { s with bases := s.bases ++ tys' } where
  bare _ := rfl
  bare_right _ := rfl
  renumber s := by
    rw [(Types.all h).1]
    simp [Symbol.renumber]
  knows s hs := by
    obtain ⟨haliased, hmembers, hbases⟩ := SymbolTable.knows_symbols.mp hs
    refine SymbolTable.knows_symbols.mpr ⟨haliased, hmembers, ?_⟩
    rw [Ty.symbolsAll_eq, List.flatMap_append, ← Ty.symbolsAll_eq, ← Ty.symbolsAll_eq]
    exact SymbolTable.knows_append.mpr ⟨hbases, (Types.all h).2⟩

lemma basesBefore {tys tys' : List Ty} (h : List.Forall₂ (ρ.Types t) tys tys') :
    ρ.Fills t (fun s => { s with bases := tys ++ s.bases })
      fun s => { s with bases := tys' ++ s.bases } where
  bare _ := rfl
  bare_right _ := rfl
  renumber s := by
    rw [(Types.all h).1]
    simp [Symbol.renumber]
  knows s hs := by
    obtain ⟨haliased, hmembers, hbases⟩ := SymbolTable.knows_symbols.mp hs
    refine SymbolTable.knows_symbols.mpr ⟨haliased, hmembers, ?_⟩
    rw [Ty.symbolsAll_eq, List.flatMap_append, ← Ty.symbolsAll_eq, ← Ty.symbolsAll_eq]
    exact SymbolTable.knows_append.mpr ⟨(Types.all h).2, hbases⟩

end Fills

namespace Definitions

/-- Both change a symbol of the module in the same way. -/
lemma modify (h : ρ.Definitions module c c' d d') {f f' : Symbol → Symbol}
    (hf : ρ.Fills c.table f f') (id : Nat) {more more' : List Diagnostic} (hmore : more' = more) :
    ρ.Definitions module c c' ⟨d.catalogue.modify id f, d.notes ++ more⟩
      ⟨d'.catalogue.modify (ρ.symbol id) f', d'.notes ++ more'⟩ where
  declared := h.declared
  declared_right := h.declared_right
  bare := (SymbolTable.bare_modify hf.bare).trans h.bare
  bare_right := (SymbolTable.bare_modify hf.bare_right).trans h.bare_right
  notes := congrArg₂ (· ++ ·) h.notes hmore
  symbol other s howns hs := by
    simp only [Catalogue.modify, SymbolTable.get?_modify] at hs ⊢
    by_cases hother : id = other
    · subst hother
      rw [if_pos rfl] at hs ⊢
      obtain ⟨u, hu, rfl⟩ := Option.map_eq_some_iff.mp hs
      obtain ⟨hu', hknows⟩ := h.symbol id u howns hu
      rw [hu', Option.map_some, hf.renumber]
      exact ⟨rfl, hf.knows u hknows⟩
    · rw [if_neg hother] at hs
      rw [if_neg fun he => hother (ρ.symbol_injective he)]
      exact h.symbol other s howns hs

section

variable (h : ρ.Definitions module c c' d d') (hviews : ρ.Views file module c c')
  (hplace : ρ.Places file module place place')
include h hviews hplace

/-- The scopes in which both lower a part of a declaration. -/
lemma scopes (typeParams : List String) {this this' : Option Ty}
    (hthis : Option.Rel (ρ.Types c.table) this this') : ρ.Scopes c.table
      ⟨d.catalogue.table, place.file, place.source, place.names, typeParams, this⟩
      ⟨d'.catalogue.table, place'.file, place'.source, place'.names, typeParams, this'⟩ where
  lookup name := by
    dsimp only
    rw [SymbolTable.lookup_congr h.bare, SymbolTable.lookup_congr h.bare_right, hplace.inFile,
      hplace.inFile_right]
    exact hviews.lookup name
  known name id hid := by
    dsimp only at hid
    rw [SymbolTable.lookup_congr h.bare, hplace.inFile] at hid
    exact hviews.known name id hid
  source := hplace.source
  names := hplace.names
  typeParams := rfl
  this := hthis

/-- **Both lower the same part of a declaration.** -/
lemma lower {α : Type} (typeParams : List String) {this this' : Option Ty}
    (hthis : Option.Rel (ρ.Types c.table) this this') (id : Nat) {w w' : Lower α}
    {Q : α → α → Prop} (hw : ρ.Lowers c.table w w' Q) {change change' : α → Symbol → Symbol}
    (hchange : ∀ a a', Q a a' → ρ.Fills c.table (change a) (change' a')) :
    ρ.Definitions module c c' (d.lower place typeParams this id w change)
      (d'.lower place' typeParams this' (ρ.symbol id) w' change') := by
  obtain ⟨hresult, hnotes⟩ := hw _ _ (h.scopes hviews hplace typeParams hthis) []
  exact h.modify (hchange _ _ hresult) id hnotes

/-- A declaration of the module leads to symbols that correspond, or to none. -/
lemma find?_eq (name : String) (kind : SymbolKind) :
    d'.catalogue.find? (place'.path name kind) kind =
      (d.catalogue.find? (place.path name kind) kind).map ρ.symbol := by
  have hhead : (place.path name kind).segments.head? = some module := congrArg some hplace.inModule
  rw [hplace.path]
  simp only [Catalogue.find?, h.declared, h.declared_right]
  exact hviews.find? _ kind hhead

/-- A symbol that a declaration of the module leads to has its counterpart. -/
lemma own {name : String} {kind : SymbolKind} {id : Nat}
    (hid : d.catalogue.find? (place.path name kind) kind = some id) :
    ∃ s, d.catalogue.table.get? id = some s ∧
      d'.catalogue.table.get? (ρ.symbol id) = some (s.renumber ρ) := by
  simp only [Catalogue.find?, h.declared] at hid
  obtain ⟨u, hu⟩ := hviews.found _ kind id hid
  obtain ⟨s, hs, -⟩ := SymbolTable.get?_congr h.bare.symm hu
  have howns : c.Owns module id := ⟨_, kind, hid, congrArg some hplace.inModule⟩
  exact ⟨s, hs, (h.symbol id s howns hs).1⟩

omit hplace in
/-- The type of a class or interface inside its own body. -/
lemma selfType {name : String} (kind : SymbolKind) (hkind : kind.shared = .klass) {id : Nat}
    (hid : d.catalogue.find? (place.path name kind) kind = some id) (typeParams : List String) :
    ρ.Types c.table (selfType id typeParams) (selfType (ρ.symbol id) typeParams) := by
  simp only [Catalogue.find?, h.declared] at hid
  exact types_selfType (hviews.klass _ kind id hkind hid) typeParams

/-! ## Declarations -/

lemma defineNamed {name : Option String} {kind : SymbolKind} {define define' : Nat → Definition}
    (hdefine : ∀ name id, d.catalogue.find? (place.path name kind) kind = some id →
      ρ.Definitions module c c' (define id) (define' (ρ.symbol id))) :
    ρ.Definitions module c c' (defineNamed place d name kind define)
      (defineNamed place' d' name kind define') := by
  unfold Interop.defineNamed
  cases name with
  | none => exact h
  | some name =>
      simp only [Option.bind_some, h.find?_eq hviews hplace]
      cases hid : d.catalogue.find? (place.path name kind) kind with
      | none => exact h
      | some id => exact hdefine name id hid

lemma defineInterface {name : String} {id : Nat} {node : InterfaceNode}
    (hid : d.catalogue.find? (place.path name .interface) .interface = some id) :
    ρ.Definitions module c c' (defineInterface place d id node)
      (defineInterface place' d' (ρ.symbol id) node) := by
  have hself := h.selfType hviews .interface rfl hid (node.typeParams.map (·.name))
  have hparts : ρ.Lowers c.table (do
        let members ← MemberNode.lowerAllOnto [] node.members
        return (members, ← lowerHeritage node.bases)) (do
        let members ← MemberNode.lowerAllOnto [] node.members
        return (members, ← lowerHeritage node.bases)) (ρ.Parts c.table) := by
    refine .bind (lower_members node.members .nil) fun _ _ hmembers => ?_
    exact (lower_heritage node.bases).map fun _ _ hbases => ⟨hmembers, hbases⟩
  unfold Interop.defineInterface
  refine h.lower hviews hplace _ (.some hself) id hparts ?_
  rintro ⟨members, bases⟩ ⟨members', bases'⟩ ⟨hmembers, hbases⟩
  exact ((Fills.typeParams fun params => if params.isEmpty then _ else params).comp
    (.members hmembers)).comp (.basesAfter hbases)

lemma defineClass {name : String} {id : Nat} {node : ClassNode}
    (hid : d.catalogue.find? (place.path name .klass) .klass = some id) :
    ρ.Definitions module c c' (defineClass place d id node)
      (defineClass place' d' (ρ.symbol id) node) := by
  have hself := h.selfType hviews .klass rfl hid (node.typeParams.map (·.name))
  have hbases : ρ.Lowers c.table (lowerClassBases node) (lowerClassBases node)
      (List.Forall₂ (ρ.Types c.table)) :=
    .bind (.mapM fun _ _ => lower_base _ _ _) fun _ _ hsuper =>
      (lower_heritage node.interfaces).map fun _ _ hbases => List.rel_append hsuper hbases
  have hparts : ρ.Lowers c.table (do
        let members ← lowerElements (Interop.selfType id (node.typeParams.map (·.name))) node.elements
        return (members, ← lowerClassBases node)) (do
        let members ← lowerElements (Interop.selfType (ρ.symbol id) (node.typeParams.map (·.name)))
          node.elements
        return (members, ← lowerClassBases node)) (ρ.Parts c.table) := by
    refine .bind (lower_elements hself node.elements) fun _ _ hmembers => ?_
    exact hbases.map fun _ _ hbases => ⟨hmembers, hbases⟩
  unfold Interop.defineClass
  refine h.lower hviews hplace _ (.some hself) id hparts ?_
  rintro ⟨members, bases⟩ ⟨members', bases'⟩ ⟨hmembers, hbases⟩
  have hfirst := (Fills.typeParams fun _ => node.typeParams.map (·.name)).comp (.members hmembers)
  dsimp only
  cases node.superclass with
  | none => exact hfirst.comp (.basesAfter hbases)
  | some superclass => exact (hfirst.comp (.basesBefore hbases)).comp .hasSuperclass

lemma defineAlias (id : Nat) (node : AliasNode) :
    ρ.Definitions module c c' (defineAlias place d id node)
      (defineAlias place' d' (ρ.symbol id) node) := by
  unfold Interop.defineAlias
  refine h.lower hviews hplace _ .none id (lower_type node.body) fun body body' hbody => ?_
  exact (Fills.typeParams fun _ => node.typeParams.map (·.name)).comp (.aliased hbody)

lemma defineFunction {name : String} {id : Nat} {node : FunctionNode}
    (hid : d.catalogue.find? (place.path name .function) .function = some id) :
    ρ.Definitions module c c' (defineFunction place d id node)
      (defineFunction place' d' (ρ.symbol id) node) := by
  obtain ⟨s, hs, hs'⟩ := h.own hviews hplace hid
  have hempty : (s.renumber ρ).members.isEmpty = s.members.isEmpty := by
    simp [Symbol.renumber]
  unfold Interop.defineFunction
  simp only [hs, hs', Option.map_some, hempty]
  split_ifs
  · exact h
  · refine h.lower hviews hplace _ .none id (lower_signature node.signature) fun _ _ hsig => ?_
    exact .members (.cons (Members.ofSignature hsig none false node.span).2.1 .nil)

lemma defineVariable (readonly : Bool) (node : VariableNode) :
    ρ.Definitions module c c' (defineVariable place readonly d node)
      (defineVariable place' readonly d' node) := by
  unfold Interop.defineVariable
  cases node.binding.name? with
  | none => exact { h with notes := congrArg (· ++ [_]) h.notes }
  | some name =>
      dsimp only
      rw [h.find?_eq hviews hplace]
      cases d.catalogue.find? (place.path name .variable) .variable with
      | none => exact h
      | some id =>
          refine h.lower hviews hplace _ .none id (lower_option node.type) fun _ _ hty => ?_
          exact .members (.cons (.property hty (some name) false readonly false node.span) .nil)

omit hviews hplace in
lemma defineEnum (id : Nat) (node : EnumNode) :
    ρ.Definitions module c c' (defineEnum d id node) (defineEnum d' (ρ.symbol id) node) := by
  have hvalues : List.Forall₂ (ρ.Members c.table) (enumValues node.members)
      (enumValues node.members) := by
    rw [List.forall₂_same]
    intro m hm
    obtain ⟨value, -, hvalue⟩ := List.mem_filterMap.mp hm
    obtain ⟨name, -, rfl⟩ := Option.map_eq_some_iff.mp hvalue
    exact .property ⟨rfl, c.table.knows_nil⟩ _ _ _ _ _
  exact h.modify (.members hvalues) id rfl

/-- **Both define the same declaration**, which has no statements inside. -/
lemma defineSimple (declaration : Declaration) :
    ρ.Definitions module c c' (defineSimple place d declaration)
      (defineSimple place' d' declaration) := by
  cases declaration with
  | interface node =>
      exact h.defineNamed hviews hplace fun _ _ hid => h.defineInterface hviews hplace hid
  | klass node => exact h.defineNamed hviews hplace fun _ _ hid => h.defineClass hviews hplace hid
  | «alias» node =>
      exact h.defineNamed hviews hplace fun _ id _ => h.defineAlias hviews hplace id node
  | enum node => exact h.defineNamed hviews hplace fun _ id _ => h.defineEnum id node
  | function node =>
      exact h.defineNamed hviews hplace fun _ _ hid => h.defineFunction hviews hplace hid
  | «variables» kind nodes =>
      simp only [Interop.defineSimple]
      induction nodes generalizing d d' with
      | nil => exact h
      | cons node rest ih => exact ih (h.defineVariable hviews hplace _ node)
  | nameSpace span name body => exact h

end

end Definitions

/-! ## Statements -/

mutual

lemma define_statement (hviews : ρ.Views file module c c') :
    ∀ {place place' : Place} {d d' : Definition} (s : Statement),
    ρ.Places file module place place' → ρ.Definitions module c c' d d' →
      ρ.Definitions module c c' (defineStatement place d s) (defineStatement place' d' s)
  | _, _, _, _, .declaration _ declaration, hplace, h =>
      define_declaration hviews declaration hplace h
  | _, _, _, _, .global _, _, h => h
  | _, _, _, _, .exportAssignment _, _, h => h
  | _, _, _, _, .otherExport _, _, h => h
  | _, _, _, _, .imports _, _, h => h
  | _, _, _, _, .block _, _, h => h
  | _, _, _, _, .compound _ _, _, h => h

lemma define_declaration (hviews : ρ.Views file module c c') :
    ∀ {place place' : Place} {d d' : Definition} (declaration : Declaration),
    ρ.Places file module place place' → ρ.Definitions module c c' d d' →
      ρ.Definitions module c c' (defineDeclaration place d declaration)
        (defineDeclaration place' d' declaration)
  | place, place', d, d', .nameSpace _ name body, hplace, h => by
      simp only [defineDeclaration]
      cases nestingName? name with
      | none => exact define_statements hviews body hplace h
      | some name =>
          simp only [h.find?_eq hviews hplace]
          cases d.catalogue.find? (place.path name .nameSpace) .nameSpace with
          | none => exact h
          | some id => exact define_statements hviews body (hplace.enter id (ρ.symbol id) name) h
  | _, _, _, _, .interface node, hplace, h => h.defineSimple hviews hplace (.interface node)
  | _, _, _, _, .klass node, hplace, h => h.defineSimple hviews hplace (.klass node)
  | _, _, _, _, .alias node, hplace, h => h.defineSimple hviews hplace (.alias node)
  | _, _, _, _, .enum node, hplace, h => h.defineSimple hviews hplace (.enum node)
  | _, _, _, _, .function node, hplace, h => h.defineSimple hviews hplace (.function node)
  | _, _, _, _, .variables kind nodes, hplace, h =>
      h.defineSimple hviews hplace (.variables kind nodes)

/-- **Both define the same statements.** -/
lemma define_statements (hviews : ρ.Views file module c c') :
    ∀ {place place' : Place} {d d' : Definition} (statements : List Statement),
    ρ.Places file module place place' → ρ.Definitions module c c' d d' →
      ρ.Definitions module c c' (defineAll place d statements) (defineAll place' d' statements)
  | _, _, _, _, [], _, h => h
  | _, _, _, _, s :: rest, hplace, h =>
      define_statements hviews rest hplace (define_statement hviews s hplace h)

end

end Renumbering

end Interop
