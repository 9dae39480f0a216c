import Interop.Generation.Run
import Mathlib.Data.List.Induction
import Mathlib.Tactic.Common

/-!
# What the first pass registers

The first pass gives every declaration its symbol, and the second one looks it up again under the
same key.  A key says where a declaration stands and of which kind it is; a class and the interfaces
of its name have different keys and one symbol.

* `keysOf`, `spansOf` — the keys of the declarations in statements, and their places.
* `declareFiles_keeps` — induction over the first pass, declaration after declaration.
* `Catalogue.Registered` — what holds between the two passes: a key leads to a symbol of its path
  and kind, and every symbol of an input is found under its own key.
* **`declareFiles_registered`** — the first pass establishes it.
-/

namespace Interop

open Source

/-! ## Keys -/

/-- What the catalogue knows a declaration by. -/
abbrev DeclKey := DeclPath × SymbolKind

/-- The key of a declaration in a namespace of a module. -/
def keyOf (module : String) (names : List String) (name : String) (kind : SymbolKind) : DeclKey :=
  (⟨module :: names ++ [name], kind.role⟩, kind)

/-- What a declaration without statements inside declares. -/
def namesOf : Declaration → List (String × SymbolKind)
  | .interface node => [(node.name, .interface)]
  | .klass node => node.name.toList.map (·, .klass)
  | .alias node => [(node.name, .alias)]
  | .enum node => [(node.name, .enum)]
  | .function node => node.name.toList.map (·, .function)
  | .variables _ nodes => (nodes.filterMap (·.binding.name?)).map (·, .variable)
  | .nameSpace .. => []

/-- The keys of a declaration without statements inside. -/
def simpleKeys (module : String) (names : List String) (d : Declaration) : List DeclKey :=
  (namesOf d).map fun (name, kind) => keyOf module names name kind

mutual

/-- The keys of the declarations in a statement. -/
def statementKeys (module : String) (names : List String) : Statement → List DeclKey
  | .declaration _ d => declarationKeys module names d
  | _ => []

/-- The keys of a declaration and of those inside it. -/
def declarationKeys (module : String) (names : List String) : Declaration → List DeclKey
  | .nameSpace _ name body =>
    match nestingName? name with
    | some name => keyOf module names name .nameSpace :: keysOf module (names ++ [name]) body
    | none => keysOf module names body
  | .interface node => simpleKeys module names (.interface node)
  | .klass node => simpleKeys module names (.klass node)
  | .alias node => simpleKeys module names (.alias node)
  | .enum node => simpleKeys module names (.enum node)
  | .function node => simpleKeys module names (.function node)
  | .variables kind nodes => simpleKeys module names (.variables kind nodes)

/-- The keys of the declarations in statements. -/
def keysOf (module : String) (names : List String) : List Statement → List DeclKey
  | [] => []
  | s :: rest => statementKeys module names s ++ keysOf module names rest

end

/-- The keys of the declarations in a file. -/
def ReadFile.keys (f : ReadFile) : List DeclKey :=
  keysOf f.place.module f.place.names f.program.body

/-! ## Places -/

mutual

/-- The places of the declarations in a statement. -/
def statementSpans : Statement → List Span
  | .declaration _ d => declarationSpans d
  | _ => []

/-- The places of a declaration and of those inside it. -/
def declarationSpans : Declaration → List Span
  | .nameSpace span _ body => span :: spansOf body
  | .interface node => [node.span]
  | .klass node => [node.span]
  | .alias node => [node.span]
  | .enum node => [node.span]
  | .function node => [node.span]
  | .variables _ nodes => nodes.map (·.span)

/-- The places of the declarations in statements. -/
def spansOf : List Statement → List Span
  | [] => []
  | s :: rest => statementSpans s ++ spansOf rest

end

/-! ## Induction over the first pass -/

section

variable {P : List DeclKey → Catalogue → Prop} {file : Nat} {spans : List Span}

/-- A property of a catalogue, and of the keys that were declared in it, that one more declaration
of a file keeps, if it stands at one of some places. -/
def KeepsDeclaring (P : List DeclKey → Catalogue → Prop) (file : Nat) (spans : List Span) : Prop :=
  ∀ (keys : List DeclKey) (c : Catalogue) (place : Place) (name : String) (kind : SymbolKind)
    (span : Span), place.file = file → span ∈ spans → P keys c →
      P (keys ++ [(place.path name kind, kind)]) (c.declare place name kind span).1

lemma declareSimple_keeps (hP : KeepsDeclaring P file spans) {place : Place}
    (hfile : place.file = file) (d : Declaration) (hd : declarationSpans d ⊆ spans)
    {keys : List DeclKey} {c : Catalogue} (hc : P keys c) :
    P (keys ++ simpleKeys place.module place.names d) (declareSimple place c d) := by
  cases d with
  | interface node => exact hP keys c place _ _ _ hfile (hd List.mem_cons_self) hc
  | «alias» node => exact hP keys c place _ _ _ hfile (hd List.mem_cons_self) hc
  | enum node => exact hP keys c place _ _ _ hfile (hd List.mem_cons_self) hc
  | klass node =>
      simp only [declareSimple, simpleKeys, namesOf]
      cases node.name with
      | none => simpa using hc
      | some name => exact hP keys c place _ _ _ hfile (hd List.mem_cons_self) hc
  | function node =>
      simp only [declareSimple, simpleKeys, namesOf]
      cases node.name with
      | none => simpa using hc
      | some name => exact hP keys c place _ _ _ hfile (hd List.mem_cons_self) hc
  | «variables» kind nodes =>
      simp only [declareSimple, simpleKeys, namesOf, declarationSpans] at hd ⊢
      induction nodes generalizing keys c with
      | nil => simpa using hc
      | cons node rest ih =>
          rw [List.map_cons, List.cons_subset] at hd
          rw [List.foldl_cons, List.filterMap_cons]
          cases node.binding.name? with
          | none => exact ih hc hd.2
          | some name =>
              have hrest := ih (hP keys c place name .variable node.span hfile hd.1 hc) hd.2
              rw [List.append_assoc] at hrest
              exact hrest
  | nameSpace span name body => simpa [declareSimple, simpleKeys, namesOf] using hc

mutual

lemma declareStatement_keeps (hP : KeepsDeclaring P file spans) :
    ∀ (place : Place) (c : Catalogue) (s : Statement) (keys : List DeclKey), place.file = file →
      statementSpans s ⊆ spans → P keys c →
        P (keys ++ statementKeys place.module place.names s) (declareStatement place c s)
  | place, c, .declaration _ d, keys, hfile, hs, hc =>
      declareDeclaration_keeps hP place c d keys hfile hs hc
  | _, _, .global _, _, _, _, hc => by simpa [declareStatement, statementKeys] using hc
  | _, _, .exportAssignment _, _, _, _, hc => by simpa [declareStatement, statementKeys] using hc
  | _, _, .otherExport _, _, _, _, hc => by simpa [declareStatement, statementKeys] using hc
  | _, _, .imports _, _, _, _, hc => by simpa [declareStatement, statementKeys] using hc
  | _, _, .block _, _, _, _, hc => by simpa [declareStatement, statementKeys] using hc
  | _, _, .compound _ _, _, _, _, hc => by simpa [declareStatement, statementKeys] using hc

lemma declareDeclaration_keeps (hP : KeepsDeclaring P file spans) :
    ∀ (place : Place) (c : Catalogue) (d : Declaration) (keys : List DeclKey), place.file = file →
      declarationSpans d ⊆ spans → P keys c →
        P (keys ++ declarationKeys place.module place.names d) (declareDeclaration place c d)
  | place, c, .nameSpace span name body, keys, hfile, hd, hc => by
      rw [declarationSpans, List.cons_subset] at hd
      simp only [declareDeclaration, declarationKeys]
      cases nestingName? name with
      | none => exact declareAll_keeps hP place c body keys hfile hd.2 hc
      | some inner =>
          have hinner := declareAll_keeps hP
            (place.enter (c.declare place inner .nameSpace span).2 inner) _ body _ hfile hd.2
            (hP keys c place inner .nameSpace span hfile hd.1 hc)
          rw [List.append_assoc] at hinner
          exact hinner
  | _, _, .interface node, _, hfile, hd, hc => declareSimple_keeps hP hfile (.interface node) hd hc
  | _, _, .klass node, _, hfile, hd, hc => declareSimple_keeps hP hfile (.klass node) hd hc
  | _, _, .alias node, _, hfile, hd, hc => declareSimple_keeps hP hfile (.alias node) hd hc
  | _, _, .enum node, _, hfile, hd, hc => declareSimple_keeps hP hfile (.enum node) hd hc
  | _, _, .function node, _, hfile, hd, hc => declareSimple_keeps hP hfile (.function node) hd hc
  | _, _, .variables kind nodes, _, hfile, hd, hc =>
      declareSimple_keeps hP hfile (.variables kind nodes) hd hc

/-- **Induction over the first pass.**  What one declaration keeps, the declarations of statements
keep, one after another. -/
lemma declareAll_keeps (hP : KeepsDeclaring P file spans) :
    ∀ (place : Place) (c : Catalogue) (statements : List Statement) (keys : List DeclKey),
      place.file = file → spansOf statements ⊆ spans → P keys c →
        P (keys ++ keysOf place.module place.names statements) (declareAll place c statements)
  | _, _, [], _, _, _, hc => by simpa [declareAll, keysOf] using hc
  | place, c, s :: rest, keys, hfile, hspans, hc => by
      rw [spansOf, List.append_subset] at hspans
      have hrest := declareAll_keeps hP place _ rest _ hfile hspans.2
        (declareStatement_keeps hP place c s keys hfile hspans.1 hc)
      rw [List.append_assoc] at hrest
      exact hrest

end

/-- What one declaration in a file keeps, the first pass establishes if it holds of the platform
types. -/
lemma declareFiles_keeps {files : List ReadFile}
    (hP : ∀ f ∈ files, KeepsDeclaring P f.place.file (spansOf f.program.body))
    (hplatform : P [] {}) : P (files.flatMap ReadFile.keys) (declareFiles files) := by
  induction files using List.reverseRecOn with
  | nil => exact hplatform
  | append_singleton files f ih =>
      have hfiles := ih fun g hg => hP g (List.mem_append_left _ hg)
      have hf := declareAll_keeps (hP f (List.mem_append_right _ List.mem_cons_self)) f.place
        (declareFiles files) f.program.body _ rfl (List.Subset.refl _) hfiles
      rw [List.flatMap_append, List.flatMap_singleton, declareFiles, List.foldl_append]
      exact hf

end

/-! ## Between the passes -/

lemma SymbolTable.get?_push (t : SymbolTable) (s : Symbol) (id : Nat) :
    (t.push s).get? id = if id = t.size then some s else t.get? id :=
  Array.getElem?_push

lemma SymbolTable.get?_modify (t : SymbolTable) (id : Nat) (f : Symbol → Symbol) (other : Nat) :
    (t.modify id f).get? other = if id = other then (t.get? other).map f else t.get? other :=
  Array.getElem?_modify

lemma SymbolTable.mem_toList {table : SymbolTable} {id : Nat} {symbol : Symbol}
    (h : table.get? id = some symbol) : (id, symbol) ∈ table.toList := by
  refine List.mem_map.mpr ⟨(symbol, id), ?_, rfl⟩
  rw [List.mem_zipIdx_iff_getElem?]
  simpa [SymbolTable.get?] using h

lemma SymbolTable.get?_of_mem_toList {table : SymbolTable} {id : Nat} {symbol : Symbol}
    (h : (id, symbol) ∈ table.toList) : table.get? id = some symbol := by
  obtain ⟨⟨other, i⟩, hmem, he⟩ := List.mem_map.mp h
  obtain ⟨rfl, rfl⟩ := Prod.mk.inj he
  rw [List.mem_zipIdx_iff_getElem?] at hmem
  simpa [SymbolTable.get?] using hmem

/-- The platform types are external classes without members. -/
lemma SymbolTable.platform_external {id : Nat} {s : Symbol}
    (h : SymbolTable.platform.get? id = some s) : ∃ name target, s = .external name target := by
  have hfold : ∀ (types : List (String × String)) (t : SymbolTable),
      (∀ id s, t.get? id = some s → ∃ name target, s = .external name target) →
        ∀ id s, (types.foldl (fun t type => t.push (.external type.1 type.2)) t).get? id = some s →
          ∃ name target, s = .external name target := by
    intro types
    induction types with
    | nil => intro t ht; exact ht
    | cons type rest ih =>
        intro t ht
        refine ih _ fun id s hs => ?_
        rw [SymbolTable.get?_push] at hs
        split_ifs at hs
        · exact ⟨_, _, (Option.some.inj hs).symm⟩
        · exact ht id s hs
  exact hfold platformTypes .empty (by simp [SymbolTable.empty, SymbolTable.get?]) id s h

/-- The kind that a symbol has in common with those it merges with. -/
def SymbolKind.shared : SymbolKind → SymbolKind
  | .interface => .klass
  | kind => kind

namespace Catalogue

lemma find?_remember (c : Catalogue) (path : DeclPath) (kind : SymbolKind) (id : Nat)
    (q : DeclPath) (k : SymbolKind) :
    (c.remember path kind id).find? q k =
      if (q, k) = (path, kind) then some id else c.find? q k := by
  simp only [find?, remember, List.lookup_cons]
  by_cases h : (q, k) = (path, kind)
  · simp [h]
  · have hne : ((q, k) == (path, kind)) = false := by simpa using h
    simp [hne, h]

/-- **What holds once declarations are registered.**  Every key leads to a symbol of its path, every
symbol of an input is found under its own key and belongs to one of the files, and a function has no
members but call signatures. -/
structure Registered (keys : List DeclKey) (files : List Nat) (c : Catalogue) : Prop where
  symbol : ∀ path kind id, c.find? path kind = some id →
    ∃ s, c.table.get? id = some s ∧ s.path = path ∧ s.externalName = none ∧
      s.kind.shared = kind.shared
  key : ∀ path kind, (c.find? path kind).isSome ↔ (path, kind) ∈ keys
  found : ∀ id s, c.table.get? id = some s → s.externalName = none →
    c.find? s.path s.kind = some id
  file : ∀ id s, c.table.get? id = some s → s.externalName = none → s.file ∈ files
  external : ∀ id s, c.table.get? id = some s → s.externalName ≠ none → s.kind = .klass
  calls : ∀ id s, c.table.get? id = some s → s.kind = .function →
    ∀ m ∈ s.members, ∃ signature, m.kind = .call signature

variable {keys : List DeclKey} {files : List Nat} {c : Catalogue}

lemma registered_platform : Registered [] files {} := by
  constructor
  · intro path kind id h
    cases h
  · intro path kind
    simp [find?]
  all_goals
    intro id s hs
    obtain ⟨name, target, rfl⟩ := SymbolTable.platform_external hs
    simp [Symbol.external]

/-- **A key that is added keeps what holds**, if its symbol is new or takes the place of one of the
same path. -/
lemma Registered.remember (h : c.Registered keys files) {path : DeclPath} {kind : SymbolKind}
    {id : Nat} {t : Symbol} {table : SymbolTable} (hnew : c.find? path kind = none)
    (htable : ∀ i, table.get? i = if i = id then some t else c.table.get? i)
    (hold : ∀ s, c.table.get? id = some s → s.path = path ∧ s.kind.shared = kind.shared)
    (hpath : t.path = path) (hshared : t.kind.shared = kind.shared)
    (hfound : t.kind = kind ∨ c.find? path t.kind = some id)
    (hexternal : t.externalName = none) (hfile : t.file ∈ files)
    (hcalls : t.kind = .function → ∀ m ∈ t.members, ∃ signature, m.kind = .call signature) :
    (({ c with table } : Catalogue).remember path kind id).Registered
      (keys ++ [(path, kind)]) files := by
  have hremember : ∀ q k, (({ c with table } : Catalogue).remember path kind id).find? q k =
      if (q, k) = (path, kind) then some id else c.find? q k := fun q k =>
    find?_remember _ path kind id q k
  have hget : ∀ i, (({ c with table } : Catalogue).remember path kind id).table.get? i =
      if i = id then some t else c.table.get? i := htable
  have hsymbols : ∀ {p : Nat → Symbol → Prop}, p id t → (∀ i s, c.table.get? i = some s → p i s) →
      ∀ i s, (({ c with table } : Catalogue).remember path kind id).table.get? i = some s →
        p i s := by
    intro p ht hothers i s hs
    rw [hget] at hs
    split_ifs at hs with hi
    · obtain rfl := Option.some.inj hs
      rwa [hi]
    · exact hothers i s hs
  constructor
  case symbol =>
    intro q k i hi
    rw [hremember] at hi
    rw [hget]
    split_ifs at hi with hq
    · obtain ⟨rfl, rfl⟩ := Prod.mk.inj hq
      obtain rfl := Option.some.inj hi
      exact ⟨t, if_pos rfl, hpath, hexternal, hshared⟩
    · obtain ⟨s, hs, hspath, hsexternal, hsshared⟩ := h.symbol q k i hi
      split_ifs with hid
      · subst hid
        obtain ⟨hsame, hkinds⟩ := hold s hs
        exact ⟨t, rfl, hpath.trans (hsame.symm.trans hspath), hexternal,
          hshared.trans (hkinds.symm.trans hsshared)⟩
      · exact ⟨s, hs, hspath, hsexternal, hsshared⟩
  case key =>
    intro q k
    rw [hremember, List.mem_append, List.mem_singleton]
    split_ifs with hq
    · simp [hq]
    · simpa [hq] using h.key q k
  case found =>
    refine hsymbols (fun _ => ?_) fun i s hs hsexternal => ?_
    · rw [hremember, hpath]
      rcases hfound with hkind | hfound
      · rw [hkind, if_pos rfl]
      · rw [hfound, ite_self]
    · have hi := h.found i s hs hsexternal
      rw [hremember, if_neg, hi]
      -- the key of an earlier symbol is not new
      rintro he
      obtain ⟨hspath, hskind⟩ := Prod.mk.inj he
      rw [hspath, hskind, hnew] at hi
      cases hi
  case file => exact hsymbols (fun _ => hfile) h.file
  case external => exact hsymbols (fun hne => absurd hexternal hne) h.external
  case calls => exact hsymbols hcalls h.calls

/-- A new symbol keeps what holds, if nothing was declared under its key. -/
lemma Registered.register (h : c.Registered keys files) {place : Place} {name : String}
    {kind : SymbolKind} (span : Span) (hfile : place.file ∈ files)
    (hnew : c.find? (place.path name kind) kind = none) :
    (c.register place name kind span).1.Registered
      (keys ++ [(place.path name kind, kind)]) files := by
  refine h.remember hnew (fun i => SymbolTable.get?_push _ _ i) (fun s hs => ?_) rfl rfl
    (Or.inl rfl) rfl hfile fun _ _ hm => ?_
  · have hfresh : c.table.get? c.table.size = none := Array.getElem?_eq_none (Nat.le_refl _)
    rw [hfresh] at hs
    cases hs
  · cases hm

/-- A declaration that joins a symbol keeps what holds.  The symbol is a class from then on. -/
lemma Registered.join (h : c.Registered keys files) {path : DeclPath} {kind : SymbolKind} {id : Nat}
    {s : Symbol} {table : SymbolTable} (hnew : c.find? path kind = none)
    (hs : c.table.get? id = some s) (hpath : s.path = path) (hexternal : s.externalName = none)
    (hshared : s.kind.shared = .klass) (hkind : kind.shared = .klass)
    (hfound : kind = .klass ∨ c.find? path .klass = some id)
    (htable : ∀ i, table.get? i = if i = id then some { s with kind := .klass }
      else c.table.get? i) :
    (({ c with table } : Catalogue).remember path kind id).Registered
      (keys ++ [(path, kind)]) files := by
  refine h.remember hnew htable (fun t ht => ?_) hpath hkind.symm (hfound.imp_left Eq.symm)
    hexternal (h.file id s hs hexternal) fun hfunction => by cases hfunction
  obtain rfl := Option.some.inj (hs.symm.trans ht)
  exact ⟨hpath, hshared.trans hkind.symm⟩

/-- **Declaring keeps what holds**, whether the declaration is new, has a symbol already or joins
one. -/
lemma Registered.declare (h : c.Registered keys files) {place : Place} {name : String}
    (kind : SymbolKind) (span : Span) (hfile : place.file ∈ files) :
    (c.declare place name kind span).1.Registered
      (keys ++ [(place.path name kind, kind)]) files := by
  cases hfound : c.find? (place.path name kind) kind with
  | some id =>
      have hkey : (place.path name kind, kind) ∈ keys := (h.key _ _).mp (by rw [hfound]; rfl)
      simp only [Catalogue.declare, hfound]
      exact { h with key := fun q k => (h.key q k).trans (by simp; rintro rfl rfl; exact hkey) }
  | none =>
      cases hjoin : (partner? kind).bind (c.find? (place.path name kind)) with
      | none =>
          simp only [Catalogue.declare, hfound, hjoin]
          exact h.register span hfile hfound
      | some id =>
          simp only [Catalogue.declare, hfound, hjoin]
          obtain ⟨other, hother, hid⟩ := Option.bind_eq_some_iff.mp hjoin
          obtain ⟨s, hs, hpath, hexternal, hshared⟩ := h.symbol _ _ _ hid
          have hself := h.found id s hs hexternal
          rw [hpath] at hself
          cases kind with
          | klass =>
              obtain rfl := Option.some.inj hother
              refine h.join hfound hs hpath hexternal hshared rfl (Or.inl rfl) fun i => ?_
              rw [if_pos (beq_self_eq_true _), SymbolTable.get?_modify]
              by_cases hi : i = id
              · rw [if_pos hi.symm, if_pos hi, hi, hs]
                rfl
              · rw [if_neg fun he => hi he.symm, if_neg hi]
          | interface =>
              obtain rfl := Option.some.inj hother
              have hklass : s.kind = .klass := by
                cases hkind : s.kind with
                | klass => rfl
                | interface =>
                    rw [hkind, hfound] at hself
                    cases hself
                | _ => simp [hkind, SymbolKind.shared] at hshared
              refine h.join hfound hs hpath hexternal hshared rfl (Or.inr hid) fun i => ?_
              have hsame : { s with kind := .klass } = s := by rw [← hklass]
              show c.table.get? i = _
              split_ifs with hi
              · rw [hsame, hi, hs]
              · rfl
          | _ => simp [partner?] at hother

end Catalogue

/-- **The first pass** registers the declarations of all files, and nothing else. -/
theorem declareFiles_registered (files : List ReadFile) :
    (declareFiles files).Registered (files.flatMap ReadFile.keys) (files.map (·.place.file)) :=
  declareFiles_keeps (P := fun keys c => c.Registered keys (files.map (·.place.file)))
    (fun _ hf _ _ _ _ kind span hfile _ hc =>
      hc.declare kind span (hfile ▸ List.mem_map_of_mem hf))
    Catalogue.registered_platform

end Interop
