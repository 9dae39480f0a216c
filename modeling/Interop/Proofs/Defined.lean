import Interop.Proofs.Declared

/-!
# What the second pass defines

The second pass visits the declarations that the first one registered, and adds to their symbols.
Nothing is taken away, and every declaration adds what its kind needs: a function a call signature,
a variable its property, an alias what it stands for.

* `Symbol.Grows`, `Catalogue.Grows` — what may become of symbols in the second pass.
* `Symbol.Has` — a symbol has what a declaration of a kind gives it.
* **`collect_complete`** — in the table of a run, every symbol has what its kind needs, and every
  symbol of an input belongs to one of the files.
-/

namespace Interop

open Source

/-! ## Symbols that grow -/

/-- **What may become of a symbol**: members are added, and to a function only call signatures. -/
structure Symbol.Grows (s t : Symbol) : Prop where
  kind : t.kind = s.kind
  path : t.path = s.path
  file : t.file = s.file
  externalName : t.externalName = s.externalName
  members : ∀ m ∈ s.members, m ∈ t.members
  aliased : s.aliased ≠ none → t.aliased ≠ none
  calls : s.kind = .function →
    ∀ m ∈ t.members, m ∈ s.members ∨ ∃ signature, m.kind = .call signature

/-- A symbol has what a declaration of a kind gives it. -/
def Symbol.Has (s : Symbol) : SymbolKind → Prop
  | .function => s.callSignatures ≠ []
  | .variable => s.properties ≠ []
  | .alias => s.aliased ≠ none
  | _ => True

namespace Symbol

variable {s t u : Symbol}

namespace Grows

lemma refl (s : Symbol) : s.Grows s :=
  ⟨rfl, rfl, rfl, rfl, fun _ h => h, fun h => h, fun _ _ h => Or.inl h⟩

lemma trans (h : s.Grows t) (k : t.Grows u) : s.Grows u where
  kind := k.kind.trans h.kind
  path := k.path.trans h.path
  file := k.file.trans h.file
  externalName := k.externalName.trans h.externalName
  members m hm := k.members m (h.members m hm)
  aliased hs := k.aliased (h.aliased hs)
  calls hs m hm := by
    rcases k.calls (h.kind.trans hs) m hm with hm | hcall
    · exact h.calls hs m hm
    · exact Or.inr hcall

end Grows

lemma callSignatures_ne_nil {m : Member} {signature : Signature} (hm : m ∈ s.members)
    (hkind : m.kind = .call signature) : s.callSignatures ≠ [] :=
  List.ne_nil_of_mem (List.mem_filterMap.mpr ⟨m, hm, by rw [hkind]⟩)

lemma properties_ne_nil {m : Member} (hm : m ∈ s.members) (hproperty : m.isProperty = true) :
    s.properties ≠ [] :=
  List.ne_nil_of_mem (List.mem_filter.mpr ⟨hm, hproperty⟩)

/-- What a symbol has, it keeps. -/
lemma Has.grows {kind : SymbolKind} (hs : s.Has kind) (h : s.Grows t) : t.Has kind := by
  cases kind with
  | function =>
      obtain ⟨signature, hsig⟩ := List.exists_mem_of_ne_nil _ hs
      obtain ⟨m, hm, hcall⟩ := List.mem_filterMap.mp hsig
      cases hkind : m.kind with
      | call other => exact callSignatures_ne_nil (h.members m hm) hkind
      | _ => simp [hkind] at hcall
  | «variable» =>
      obtain ⟨m, hproperty⟩ := List.exists_mem_of_ne_nil _ hs
      obtain ⟨hm, hproperty⟩ := List.mem_filter.mp hproperty
      exact properties_ne_nil (h.members m hm) hproperty
  | «alias» => exact h.aliased hs
  | _ => trivial

end Symbol

/-! ## Catalogues that grow -/

namespace Catalogue

variable {c d e : Catalogue} {keys : List DeclKey} {files : List Nat}

/-- **What may become of a catalogue**: its symbols grow, and no other is there. -/
structure Grows (c d : Catalogue) : Prop where
  declared : d.declared = c.declared
  symbol : ∀ id s, c.table.get? id = some s → ∃ t, d.table.get? id = some t ∧ s.Grows t
  origin : ∀ id t, d.table.get? id = some t → ∃ s, c.table.get? id = some s ∧ s.Grows t

namespace Grows

lemma refl (c : Catalogue) : c.Grows c :=
  ⟨rfl, fun _ s h => ⟨s, h, .refl s⟩, fun _ s h => ⟨s, h, .refl s⟩⟩

lemma trans (h : c.Grows d) (k : d.Grows e) : c.Grows e where
  declared := k.declared.trans h.declared
  symbol id s hs := by
    obtain ⟨t, ht, hst⟩ := h.symbol id s hs
    obtain ⟨u, hu, htu⟩ := k.symbol id t ht
    exact ⟨u, hu, hst.trans htu⟩
  origin id u hu := by
    obtain ⟨t, ht, htu⟩ := k.origin id u hu
    obtain ⟨s, hs, hst⟩ := h.origin id t ht
    exact ⟨s, hs, hst.trans htu⟩

lemma find?_eq (h : c.Grows d) (path : DeclPath) (kind : SymbolKind) :
    d.find? path kind = c.find? path kind := by
  rw [find?, find?, h.declared]

/-- A catalogue grows with one of its symbols. -/
lemma modify {id : Nat} {f : Symbol → Symbol}
    (h : ∀ s, c.table.get? id = some s → s.Grows (f s)) : c.Grows (c.modify id f) where
  declared := rfl
  symbol other s hs := by
    show ∃ t, (c.table.modify id f).get? other = some t ∧ s.Grows t
    rw [SymbolTable.get?_modify]
    split_ifs with hid
    · subst hid
      exact ⟨f s, by rw [hs]; rfl, h s hs⟩
    · exact ⟨s, hs, .refl s⟩
  origin other t ht := by
    have hget : (c.table.modify id f).get? other = some t := ht
    rw [SymbolTable.get?_modify] at hget
    split_ifs at hget with hid
    · subst hid
      obtain ⟨s, hs, rfl⟩ := Option.map_eq_some_iff.mp hget
      exact ⟨s, hs, h s hs⟩
    · exact ⟨t, hget, .refl t⟩

end Grows

/-- What holds between the passes still holds in the second. -/
lemma Registered.grows (h : c.Registered keys files) (hd : c.Grows d) :
    d.Registered keys files where
  symbol path kind id hid := by
    rw [hd.find?_eq] at hid
    obtain ⟨s, hs, hpath, hexternal, hshared⟩ := h.symbol path kind id hid
    obtain ⟨t, ht, hst⟩ := hd.symbol id s hs
    exact ⟨t, ht, hst.path.trans hpath, hst.externalName.trans hexternal, by rw [hst.kind, hshared]⟩
  key path kind := by
    rw [hd.find?_eq]
    exact h.key path kind
  found id t ht hexternal := by
    obtain ⟨s, hs, hst⟩ := hd.origin id t ht
    rw [hd.find?_eq, hst.path, hst.kind]
    exact h.found id s hs (hst.externalName ▸ hexternal)
  file id t ht hexternal := by
    obtain ⟨s, hs, hst⟩ := hd.origin id t ht
    rw [hst.file]
    exact h.file id s hs (hst.externalName ▸ hexternal)
  external id t ht hexternal := by
    obtain ⟨s, hs, hst⟩ := hd.origin id t ht
    rw [hst.kind]
    exact h.external id s hs (hst.externalName ▸ hexternal)
  calls id t ht hkind m hm := by
    obtain ⟨s, hs, hst⟩ := hd.origin id t ht
    have hfunction : s.kind = .function := hst.kind ▸ hkind
    rcases hst.calls hfunction m hm with hm | hcall
    · exact h.calls id s hs hfunction m hm
    · exact hcall

/-! ## Declarations that are defined -/

/-- The symbol of a key has what a declaration of that key gives it. -/
def Defined (c : Catalogue) (key : DeclKey) : Prop :=
  ∃ id s, c.find? key.1 key.2 = some id ∧ c.table.get? id = some s ∧ s.Has key.2

lemma Defined.grows {key : DeclKey} (h : c.Defined key) (hd : c.Grows d) : d.Defined key := by
  obtain ⟨id, s, hid, hs, hhas⟩ := h
  obtain ⟨t, ht, hst⟩ := hd.symbol id s hs
  exact ⟨id, t, (hd.find?_eq _ _).trans hid, ht, hhas.grows hst⟩

/-- A part of the second pass, in which declarations with some keys are defined. -/
structure Defines (keys : List DeclKey) (c d : Catalogue) : Prop where
  grows : c.Grows d
  defined : ∀ key ∈ keys, d.Defined key

namespace Defines

variable {first second : List DeclKey}

lemma nil (c : Catalogue) : Defines [] c c :=
  ⟨.refl c, by simp⟩

lemma append (h : Defines first c d) (k : Defines second d e) : Defines (first ++ second) c e where
  grows := h.grows.trans k.grows
  defined key hkey := by
    rcases List.mem_append.mp hkey with hkey | hkey
    · exact (h.defined key hkey).grows k.grows
    · exact k.defined key hkey

/-- One symbol grows, and has then what its declaration gives it. -/
lemma modify {path : DeclPath} {kind : SymbolKind} {id : Nat} {f : Symbol → Symbol}
    (h : c.Registered keys files) (hid : c.find? path kind = some id)
    (hf : ∀ s, c.table.get? id = some s → s.kind.shared = kind.shared →
      s.Grows (f s) ∧ (f s).Has kind) :
    Defines [(path, kind)] c (c.modify id f) := by
  obtain ⟨s, hs, -, -, hshared⟩ := h.symbol path kind id hid
  have hgrows : c.Grows (c.modify id f) := .modify fun t ht => by
    rw [hs] at ht
    obtain rfl := Option.some.inj ht
    exact (hf s hs hshared).1
  refine ⟨hgrows, fun key hkey => ?_⟩
  obtain rfl := List.mem_singleton.mp hkey
  refine ⟨id, f s, hid, ?_, (hf s hs hshared).2⟩
  show (c.table.modify id f).get? id = some (f s)
  rw [SymbolTable.get?_modify, if_pos rfl, hs]
  rfl

end Defines

end Catalogue

/-! ## The second pass -/

lemma SymbolKind.ne_function {kind other : SymbolKind} (h : kind.shared = other.shared)
    (hother : other ≠ .function) : kind ≠ .function := by
  rintro rfl
  cases other <;> simp [SymbolKind.shared] at h hother

lemma SymbolKind.eq_function {kind : SymbolKind} (h : kind.shared = SymbolKind.function.shared) :
    kind = .function := by
  cases kind <;> simp [SymbolKind.shared] at h ⊢

section

open Catalogue

variable {keys : List DeclKey} {files : List Nat} {place : Place} {d : Definition}

lemma defineNamed_defines {name : String} {kind : SymbolKind} {define : Nat → Definition}
    (h : d.catalogue.Registered keys files) (hkey : (place.path name kind, kind) ∈ keys)
    (hdefine : ∀ id, d.catalogue.find? (place.path name kind) kind = some id →
      Defines [(place.path name kind, kind)] d.catalogue (define id).catalogue) :
    Defines [(place.path name kind, kind)] d.catalogue
      (defineNamed place d (some name) kind define).catalogue := by
  obtain ⟨id, hid⟩ := Option.isSome_iff_exists.mp ((h.key _ _).mpr hkey)
  simp only [defineNamed, Option.bind_some, hid]
  exact hdefine id hid

/-- What an interface or a class says grows its symbol. -/
lemma Symbol.Grows.of_members {s t : Symbol} (hne : s.kind ≠ .function) (kind : t.kind = s.kind)
    (path : t.path = s.path) (file : t.file = s.file)
    (externalName : t.externalName = s.externalName) (aliased : t.aliased = s.aliased)
    {more : List Member} (members : t.members = s.members ++ more) :
    s.Grows t where
  kind := kind
  path := path
  file := file
  externalName := externalName
  members m hm := by simp [members, hm]
  aliased := by simp [aliased]
  calls hfunction := absurd hfunction hne

/-- A function has a call signature after its definition: a new one, or one of the overloads that
stand before its body. -/
lemma defineFunction_defines {path : DeclPath} {id : Nat} (h : d.catalogue.Registered keys files)
    (hid : d.catalogue.find? path .function = some id) (node : FunctionNode) :
    Defines [(path, .function)] d.catalogue (defineFunction place d id node).catalogue := by
  obtain ⟨s, hs, -, -, hshared⟩ := h.symbol path .function id hid
  have hfunction : s.kind = .function := SymbolKind.eq_function hshared
  unfold defineFunction
  dsimp only
  split_ifs with hbody
  · refine ⟨.refl _, fun key hkey => ?_⟩
    obtain rfl := List.mem_singleton.mp hkey
    refine ⟨id, s, hid, hs, ?_⟩
    have hmembers : s.members ≠ [] := by
      simp only [hs, Option.map_some, Option.getD_some, Bool.and_eq_true, Bool.not_eq_true',
        List.isEmpty_eq_false_iff] at hbody
      exact hbody.2
    obtain ⟨m, hm⟩ := List.exists_mem_of_ne_nil _ hmembers
    obtain ⟨signature, hcall⟩ := h.calls id s hs hfunction m hm
    exact Symbol.callSignatures_ne_nil hm hcall
  · refine Defines.modify h hid fun t ht htshared => ⟨⟨rfl, rfl, rfl, rfl, ?_, fun h => h, ?_⟩, ?_⟩
    · exact fun m hm => List.mem_append_left _ hm
    · intro _ m hm
      rcases List.mem_append.mp hm with hm | hm
      · exact Or.inl hm
      · rw [List.mem_singleton.mp hm]
        exact Or.inr ⟨_, rfl⟩
    · exact Symbol.callSignatures_ne_nil (List.mem_append_right _ (List.mem_singleton.mpr rfl)) rfl

/-- A variable has its property after its definition; one that takes a value apart is no symbol. -/
lemma defineVariable_defines (h : d.catalogue.Registered keys files) (readonly : Bool)
    (node : VariableNode) (hkeys : ∀ name, node.binding.name? = some name →
      (place.path name .variable, .variable) ∈ keys) :
    Defines (node.binding.name?.toList.map fun name => (place.path name .variable, .variable))
      d.catalogue (defineVariable place readonly d node).catalogue := by
  unfold defineVariable
  cases hname : node.binding.name? with
  | none => exact .nil _
  | some name =>
      obtain ⟨id, hid⟩ := Option.isSome_iff_exists.mp ((h.key _ _).mpr (hkeys name hname))
      simp only [hid]
      refine Defines.modify h hid fun s hs hshared => ⟨?_, ?_⟩
      · exact .of_members (SymbolKind.ne_function hshared (by decide)) rfl rfl rfl rfl rfl rfl
      · exact Symbol.properties_ne_nil (List.mem_append_right _ (List.mem_singleton.mpr rfl)) rfl

/-- The variables of one declaration, one after another. -/
lemma defineVariables_defines (readonly : Bool) : ∀ (nodes : List VariableNode) {d : Definition},
    d.catalogue.Registered keys files →
      (∀ key ∈ (nodes.filterMap (·.binding.name?)).map fun name =>
        (place.path name .variable, SymbolKind.variable), key ∈ keys) →
      Defines
        ((nodes.filterMap (·.binding.name?)).map fun name => (place.path name .variable, .variable))
        d.catalogue (nodes.foldl (defineVariable place readonly) d).catalogue
  | [], d, _, _ => .nil _
  | node :: rest, d, h, hkeys => by
      have hsplit : (node :: rest).filterMap (·.binding.name?) =
          node.binding.name?.toList ++ rest.filterMap (·.binding.name?) := by
        cases hname : node.binding.name? <;> simp [hname]
      rw [hsplit, List.map_append] at hkeys ⊢
      have hfirst : Defines _ d.catalogue (defineVariable place readonly d node).catalogue :=
        defineVariable_defines h readonly node fun name hname =>
          hkeys _ (List.mem_append_left _ (by simp [hname]))
      exact hfirst.append (defineVariables_defines readonly rest (h.grows hfirst.grows)
        fun key hkey => hkeys key (List.mem_append_right _ hkey))

/-- Whatever is declared without statements inside is defined. -/
lemma defineSimple_defines (h : d.catalogue.Registered keys files) (declaration : Declaration)
    (hkeys : ∀ key ∈ simpleKeys place.module place.names declaration, key ∈ keys) :
    Defines (simpleKeys place.module place.names declaration) d.catalogue
      (defineSimple place d declaration).catalogue := by
  cases declaration with
  | interface node =>
      refine defineNamed_defines h (hkeys _ (List.mem_singleton.mpr rfl)) fun id hid => ?_
      refine Defines.modify h hid fun s hs hshared => ⟨?_, trivial⟩
      exact .of_members (SymbolKind.ne_function hshared (by decide)) rfl rfl rfl rfl rfl rfl
  | klass node =>
      simp only [defineSimple, simpleKeys, namesOf] at hkeys ⊢
      cases hname : node.name with
      | none => exact .nil _
      | some name =>
          rw [hname] at hkeys
          refine defineNamed_defines h (hkeys _ (List.mem_singleton.mpr rfl)) fun id hid => ?_
          refine Defines.modify h hid fun s hs hshared => ⟨?_, trivial⟩
          have hne : s.kind ≠ .function := SymbolKind.ne_function hshared (by simp)
          cases node.superclass <;> exact .of_members hne rfl rfl rfl rfl rfl rfl
  | «alias» node =>
      refine defineNamed_defines h (hkeys _ (List.mem_singleton.mpr rfl)) fun id hid => ?_
      refine Defines.modify h hid fun s hs hshared => ⟨?_, Option.some_ne_none _⟩
      exact ⟨rfl, rfl, rfl, rfl, fun _ hm => hm, fun _ => Option.some_ne_none _,
        fun hfunction => absurd hfunction (SymbolKind.ne_function hshared (by decide))⟩
  | enum node =>
      refine defineNamed_defines h (hkeys _ (List.mem_singleton.mpr rfl)) fun id hid => ?_
      refine Defines.modify h hid fun s hs hshared => ⟨?_, trivial⟩
      exact .of_members (SymbolKind.ne_function hshared (by decide)) rfl rfl rfl rfl rfl rfl
  | function node =>
      simp only [defineSimple, simpleKeys, namesOf] at hkeys ⊢
      cases hname : node.name with
      | none => exact .nil _
      | some name =>
          rw [hname] at hkeys
          exact defineNamed_defines h (hkeys _ (List.mem_singleton.mpr rfl)) fun id hid =>
            defineFunction_defines h hid node
  | «variables» kind nodes =>
      simp only [simpleKeys, namesOf, List.map_map] at hkeys ⊢
      exact defineVariables_defines (kind == .const) nodes h hkeys
  | nameSpace span name body => exact .nil _

mutual

lemma defineStatement_defines : ∀ (place : Place) (d : Definition) (s : Statement),
    d.catalogue.Registered keys files →
      (∀ key ∈ statementKeys place.module place.names s, key ∈ keys) →
        Defines (statementKeys place.module place.names s) d.catalogue
          (defineStatement place d s).catalogue
  | place, d, .declaration _ declaration, h, hkeys =>
      defineDeclaration_defines place d declaration h hkeys
  | _, _, .global _, _, _ => .nil _
  | _, _, .exportAssignment _, _, _ => .nil _
  | _, _, .otherExport _, _, _ => .nil _
  | _, _, .imports _, _, _ => .nil _
  | _, _, .block _, _, _ => .nil _
  | _, _, .compound _ _, _, _ => .nil _

lemma defineDeclaration_defines : ∀ (place : Place) (d : Definition) (declaration : Declaration),
    d.catalogue.Registered keys files →
      (∀ key ∈ declarationKeys place.module place.names declaration, key ∈ keys) →
        Defines (declarationKeys place.module place.names declaration) d.catalogue
          (defineDeclaration place d declaration).catalogue
  | place, d, .nameSpace _ name body, h, hkeys => by
      simp only [defineDeclaration, declarationKeys] at hkeys ⊢
      cases hnest : nestingName? name with
      | none =>
          rw [hnest] at hkeys
          exact defineAll_defines place d body h hkeys
      | some inner =>
          rw [hnest] at hkeys
          obtain ⟨id, hid⟩ :=
            Option.isSome_iff_exists.mp ((h.key _ _).mpr (hkeys _ List.mem_cons_self))
          obtain ⟨s, hs, -⟩ := h.symbol _ _ id hid
          have hfound : d.catalogue.find? (place.path inner .nameSpace) .nameSpace = some id := hid
          have hself : Defines [keyOf place.module place.names inner .nameSpace] d.catalogue
              d.catalogue := by
            refine ⟨.refl _, fun key hkey => ?_⟩
            obtain rfl := List.mem_singleton.mp hkey
            exact ⟨id, s, hid, hs, trivial⟩
          simp only [hfound]
          exact hself.append (defineAll_defines (place.enter id inner) d body h
            fun key hkey => hkeys key (List.mem_cons_of_mem _ hkey))
  | _, _, .interface node, h, hkeys => defineSimple_defines h (.interface node) hkeys
  | _, _, .klass node, h, hkeys => defineSimple_defines h (.klass node) hkeys
  | _, _, .alias node, h, hkeys => defineSimple_defines h (.alias node) hkeys
  | _, _, .enum node, h, hkeys => defineSimple_defines h (.enum node) hkeys
  | _, _, .function node, h, hkeys => defineSimple_defines h (.function node) hkeys
  | _, _, .variables kind nodes, h, hkeys => defineSimple_defines h (.variables kind nodes) hkeys

/-- **What is declared in statements is defined by the second pass**, also inside namespaces. -/
lemma defineAll_defines : ∀ (place : Place) (d : Definition) (statements : List Statement),
    d.catalogue.Registered keys files →
      (∀ key ∈ keysOf place.module place.names statements, key ∈ keys) →
        Defines (keysOf place.module place.names statements) d.catalogue
          (defineAll place d statements).catalogue
  | _, _, [], _, _ => .nil _
  | place, d, s :: rest, h, hkeys => by
      have hs := defineStatement_defines place d s h fun key hkey =>
        hkeys key (List.mem_append_left _ hkey)
      exact hs.append (defineAll_defines place _ rest (h.grows hs.grows) fun key hkey =>
        hkeys key (List.mem_append_right _ hkey))

end

lemma defineFiles_defines : ∀ (rest : List ReadFile) {c : Catalogue}, c.Registered keys files →
    (∀ key ∈ rest.flatMap ReadFile.keys, key ∈ keys) →
      Defines (rest.flatMap ReadFile.keys) c (defineFiles c rest).1
  | [], _, _, _ => .nil _
  | f :: rest, c, h, hkeys => by
      rw [List.flatMap_cons] at hkeys ⊢
      have hf := defineAll_defines f.place ⟨c, []⟩ f.program.body h fun key hkey =>
        hkeys key (List.mem_append_left _ hkey)
      exact hf.append (defineFiles_defines rest (h.grows hf.grows) fun key hkey =>
        hkeys key (List.mem_append_right _ hkey))

end

/-! ## The table of a run -/

/-- **The table of a run is complete.**  Every symbol has what its kind needs, and a symbol that is
not of the platform belongs to one of the files. -/
theorem collect_complete (files : List ReadFile) :
    ∀ id s, (collect files).1.get? id = some s →
      s.Has s.kind ∧ (s.externalName = none → s.file ∈ files.map (·.place.file)) := by
  intro id s hs
  have hregistered := declareFiles_registered files
  have hdefines := defineFiles_defines files hregistered fun _ hkey => hkey
  have hfinal := hregistered.grows hdefines.grows
  refine ⟨?_, hfinal.file id s hs⟩
  by_cases hexternal : s.externalName = none
  · have hfound := hfinal.found id s hs hexternal
    have hkey := (hfinal.key s.path s.kind).mp (by rw [hfound]; rfl)
    obtain ⟨other, t, hother, ht, hhas⟩ := hdefines.defined _ hkey
    have hid : id = other := Option.some.inj (hfound.symm.trans hother)
    have hsame : (defineFiles (declareFiles files) files).1.table.get? id = some s := hs
    rw [hid, ht] at hsame
    exact Option.some.inj hsame ▸ hhas
  · rw [hfinal.external id s hs hexternal]
    trivial

end Interop
