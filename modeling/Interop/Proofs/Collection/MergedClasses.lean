import Interop.Proofs.Collection.FileAccounts
import Interop.Proofs.FlatNames
import Interop.Proofs.Renumbering.Collection

/-!
# Classes and interfaces that share a symbol

A class and the interfaces of its name have one symbol.  Whichever comes first registers it, and the
class makes it a class.  Then each adds what it says: its members go behind those that are there, and
so do its bases, but a superclass goes before all of them, together with what its class implements.

* `ClassBody`, `SimpleDeclaration.body` — what a class or an interface says, lowered by itself.
* `SimpleDeclaration.body_renumber` — it depends on where names lead, and on nothing else.
* `ReadFile.declarationsAt` — the classes and interfaces with one name in one namespace.
* `Symbol.Gathers` — a symbol to which some bodies were added, in order.
* `Site.define_gathers` — a class or an interface adds its body, whatever was added before.
* `foldl_define_gathers` — so the declarations of a file add one body after another.
* **`collect_gathers`** — in the table of a run, the symbol of a class holds all bodies.
-/

namespace Interop

open Source

/-! ## Bodies -/

/-- What a class or an interface says about its symbol. -/
structure ClassBody where
  members : List Member := []
  superclass : Option Ty := none
  /-- What a class implements, or an interface extends. -/
  heritage : List Ty := []

namespace ClassBody

/-- All bases, the superclass first. -/
def bases (body : ClassBody) : List Ty :=
  body.superclass.toList ++ body.heritage

/-- A body with other numbers for its symbols. -/
def mapSymbols (f : Nat → Nat) (body : ClassBody) : ClassBody :=
  ⟨body.members.map (Member.mapSymbols f), body.superclass.map (Ty.mapSymbols f),
    body.heritage.map (Ty.mapSymbols f)⟩

lemma mapSymbols_id (body : ClassBody) : body.mapSymbols id = body := by
  have hty : Ty.mapSymbols id = id := funext Ty.mapSymbols_id
  have hmember : Member.mapSymbols id = id := funext Member.mapSymbols_id
  simp [mapSymbols, hty, hmember]

end ClassBody

namespace SimpleDeclaration

/-- The class that is declared, if it is one. -/
def class? : SimpleDeclaration → Option ClassNode
  | .klass node => some node
  | _ => none

/-- Lower what a class or an interface says, where the object itself has a type. -/
def lowerBody (self : Ty) : SimpleDeclaration → Lower ClassBody
  | .interface node => do
    let members ← MemberNode.lowerAllOnto [] node.members
    return ⟨members, none, ← lowerHeritage node.bases⟩
  | .klass node => do
    let members ← lowerElements self node.elements
    let superclass ← node.superclass.mapM fun e => lowerBase e.dottedName? node.superArgs e.span
    return ⟨members, superclass, ← lowerHeritage node.interfaces⟩
  | .alias _ | .enum _ | .function _ | .variable .. => return {}

/-- Where the body of a declaration is lowered, if its symbol has a number. -/
def scope (declaration : SimpleDeclaration) (table : SymbolTable) (place : Place)
    (names : List String) (id : Nat) : LoweringScope :=
  ⟨table, place.file, place.source, names, declaration.typeParams,
    some (selfType id declaration.typeParams)⟩

/-- **What a class or an interface says**, lowered by itself in the names of a table. -/
def body (declaration : SimpleDeclaration) (table : SymbolTable) (place : Place)
    (names : List String) (id : Nat) : ClassBody :=
  ((declaration.lowerBody (selfType id declaration.typeParams)
    (declaration.scope table place names id)).run []).1

variable (table : SymbolTable) (place : Place) (names : List String) (id : Nat)

/-- A body has a superclass if and only if its declaration is a class with one. -/
lemma body_superclass_isSome (declaration : SimpleDeclaration) :
    (declaration.body table place names id).superclass.isSome =
      (declaration.class?.bind (·.superclass)).isSome := by
  cases declaration with
  | klass node =>
      cases hsuper : node.superclass with
      | none => simp only [body, lowerBody, class?, Option.bind_some, hsuper]; rfl
      | some e => simp only [body, lowerBody, class?, Option.bind_some, hsuper]; rfl
  | _ => rfl

/-- The bases of a class are those of its body. -/
lemma body_klass (node : ClassNode) :
    let self := selfType id (node.typeParams.map (·.name))
    ((do
        let members ← lowerElements self node.elements
        return (members, ← lowerClassBases node) : Lower (List Member × List Ty))
      ((SimpleDeclaration.klass node).scope table place names id)).run [] |>.1 =
      (((SimpleDeclaration.klass node).body table place names id).members,
        ((SimpleDeclaration.klass node).body table place names id).bases) := by
  simp only [body, lowerBody, lowerClassBases]
  cases node.superclass <;> rfl

end SimpleDeclaration

/-! ### Other numbers and other tables -/

namespace Renumbering

variable {ρ : Renumbering} {t : SymbolTable}

/-- **The same declaration has the same body**, up to numbers. -/
lemma lower_body {self self' : Ty} (hself : ρ.Types t self self')
    (declaration : SimpleDeclaration) :
    ρ.Lowers t (declaration.lowerBody self) (declaration.lowerBody self')
      fun body body' => body' = body.mapSymbols ρ.symbol := by
  cases declaration with
  | interface node =>
      refine .bind (lower_members node.members .nil) fun _ _ hmembers => ?_
      refine (lower_heritage node.bases).map fun _ _ hbases => ?_
      rw [(Members.all hmembers).1, (Types.all hbases).1]
      rfl
  | klass node =>
      refine .bind (lower_elements hself node.elements) fun members members' hmembers => ?_
      obtain ⟨rfl, -⟩ := Members.all hmembers
      have hheritage : ∀ superclass superclass' : Option Ty,
          superclass' = superclass.map (Ty.mapSymbols ρ.symbol) →
            ρ.Lowers t (do return (⟨members, superclass, ← lowerHeritage node.interfaces⟩ : ClassBody))
              (do return (⟨members.map (Member.mapSymbols ρ.symbol), superclass',
                ← lowerHeritage node.interfaces⟩ : ClassBody))
              fun body body' => body' = body.mapSymbols ρ.symbol := by
        rintro superclass _ rfl
        refine (lower_heritage node.interfaces).map fun _ _ hbases => ?_
        rw [(Types.all hbases).1]
        rfl
      cases node.superclass with
      | none => exact hheritage none none rfl
      | some e =>
          refine .bind ((lower_base e.dottedName? node.superArgs e.span).map fun _ _ hbase => ?_)
            hheritage
          exact congrArg some hbase.1
  | _ => exact .pure rfl

end Renumbering

namespace SimpleDeclaration

variable {files : List ReadFile} {u u' : SymbolTable} {id : Nat}

/-- **A body depends on where names lead**, and on nothing else in a table. -/
lemma body_renumber {ρ : Renumbering} (hu : u.bare = (declareFiles files).table.bare)
    (hlookup : ∀ name file, u'.lookup name file SymbolKind.isType =
      (u.lookup name file SymbolKind.isType).map ρ.symbol)
    (hid : (declareFiles files).table.IsTypeSymbol id) (declaration : SimpleDeclaration)
    (place : Place) (names : List String) :
    declaration.body u' place names (ρ.symbol id) =
      (declaration.body u place names id).mapSymbols ρ.symbol := by
  have hself := Renumbering.types_selfType (ρ := ρ) hid declaration.typeParams
  have hviews := Renumbering.Views.same files place.file place.module
  have hscopes : ρ.Scopes (declareFiles files).table (declaration.scope u place names id)
      (declaration.scope u' place names (ρ.symbol id)) := by
    refine ⟨fun name => hlookup name place.file, fun name other hother => ?_, rfl, rfl, rfl,
      .some hself⟩
    exact hviews.known name other ((SymbolTable.lookup_congr hu _ _ _).symm.trans hother)
  exact (Renumbering.lower_body hself declaration _ _ hscopes []).1

/-- A body does not depend on what the second pass has filled in so far. -/
lemma body_congr (hu : u.bare = (declareFiles files).table.bare)
    (hid : (declareFiles files).table.IsTypeSymbol id) (declaration : SimpleDeclaration)
    (place : Place) (names : List String) : declaration.body u place names id =
      declaration.body (declareFiles files).table place names id := by
  have hsame : ∀ name file, u.lookup name file SymbolKind.isType =
      ((declareFiles files).table.lookup name file SymbolKind.isType).map
        Renumbering.same.symbol :=
    fun _ _ => (SymbolTable.lookup_congr hu _ _ _).trans Option.map_id'.symm
  exact (body_renumber rfl hsame hid declaration place names).trans (ClassBody.mapSymbols_id _)

end SimpleDeclaration

/-! ## What a symbol gathers -/

/-- **A symbol to which bodies were added**, in order, by declarations with the same type
parameters. -/
structure Symbol.Gathers (params : List String) (bodies : List ClassBody) (s : Symbol) : Prop where
  typeParams : s.typeParams = if bodies.isEmpty then [] else params
  members : s.members = bodies.flatMap (·.members)
  bases : s.bases.Perm (bodies.flatMap (·.bases))
  hasSuperclass : s.hasSuperclass = bodies.any (·.superclass.isSome)
  /-- The superclass that was added last stands first. -/
  superclass : ∀ ty, (bodies.filterMap (·.superclass)).getLast? = some ty → s.bases.head? = some ty

namespace Symbol.Gathers

variable {params : List String} {bodies : List ClassBody} {body : ClassBody} {s t : Symbol}

/-- A symbol that says nothing yet. -/
lemma of_bare (h : s.bare = s) : s.Gathers params [] := by
  rw [← h]
  exact ⟨rfl, rfl, .refl _, rfl, by simp⟩

/-- What an interface says goes behind what is there. -/
lemma append (h : s.Gathers params bodies) (hsuper : body.superclass = none)
    (htypeParams : t.typeParams = params) (hmembers : t.members = s.members ++ body.members)
    (hbases : t.bases = s.bases ++ body.heritage) (hhas : t.hasSuperclass = s.hasSuperclass) :
    t.Gathers params (bodies ++ [body]) := by
  have hown : body.bases = body.heritage := by simp [ClassBody.bases, hsuper]
  refine ⟨by simp [htypeParams], by simp [hmembers, h.members], ?_, ?_, fun ty hty => ?_⟩
  · rw [hbases, List.flatMap_append, List.flatMap_singleton, hown]
    exact h.bases.append_right _
  · rw [hhas, h.hasSuperclass, List.any_append, List.any_cons, hsuper]
    simp
  · rw [List.filterMap_append, List.filterMap_cons_none hsuper, List.filterMap_nil,
      List.append_nil] at hty
    rw [hbases, List.head?_append, h.superclass ty hty]
    rfl

/-- A superclass goes before what is there, with all that its class says about bases. -/
lemma prepend (h : s.Gathers params bodies) {superclass : Ty}
    (hsuper : body.superclass = some superclass) (htypeParams : t.typeParams = params)
    (hmembers : t.members = s.members ++ body.members) (hbases : t.bases = body.bases ++ s.bases)
    (hhas : t.hasSuperclass = true) : t.Gathers params (bodies ++ [body]) := by
  refine ⟨by simp [htypeParams], by simp [hmembers, h.members], ?_, ?_, fun ty hty => ?_⟩
  · rw [hbases, List.flatMap_append, List.flatMap_singleton]
    exact List.perm_append_comm.trans (h.bases.append_right _)
  · rw [hhas, List.any_append, List.any_cons, hsuper]
    simp
  · rw [List.filterMap_append, List.filterMap_cons_some hsuper, List.filterMap_nil,
      List.getLast?_concat] at hty
    rw [hbases, ClassBody.bases, hsuper, ← hty]
    rfl

end Symbol.Gathers

/-! ## The second pass -/

section

variable {place : Place} {d : Definition} {id : Nat} {site : Site}

/-- A declaration leaves all symbols alone but its own. -/
lemma Site.define_get?_of_ne (hid : site.symbol? d.catalogue place.module ≠ some id) :
    (site.define place d).catalogue.table.get? id = d.catalogue.table.get? id := by
  have hcases := site.define_cases place d
  generalize site.define place d = result at hcases ⊢
  cases hcases with
  | skipped _ hcatalogue => rw [hcatalogue]
  | overloaded => rfl
  | @filled other _ hother hresult =>
      obtain ⟨_, change, _, rfl, -⟩ := hresult
      refine (SymbolTable.get?_modify _ _ _ _).trans (if_neg fun he => hid ?_)
      rw [hother, he]

/-- What is lowered for a symbol changes it. -/
lemma Definition.lower_get? {α : Type} {typeParams : List String} {this : Option Ty}
    {work : Lower α} {change : α → Symbol → Symbol} {s : Symbol}
    (hs : d.catalogue.table.get? id = some s) {result : α}
    (hresult : ((work ⟨d.catalogue.table, place.file, place.source, place.names, typeParams,
      this⟩).run []).1 = result) :
    (d.lower place typeParams this id work change).catalogue.table.get? id =
      some (change result s) := by
  subst hresult
  refine (SymbolTable.get?_modify _ _ _ _).trans ?_
  rw [if_pos rfl, hs]
  rfl

/-- **A class or an interface adds its body to its symbol**, whatever was added before. -/
lemma Site.define_gathers (hid : site.symbol? d.catalogue place.module = some id)
    (hkind : site.declaration.kind.shared = .klass) {s : Symbol}
    (hs : d.catalogue.table.get? id = some s) {bodies : List ClassBody}
    (h : s.Gathers site.declaration.typeParams bodies) :
    ∃ t, (site.define place d).catalogue.table.get? id = some t ∧
      t.Gathers site.declaration.typeParams
        (bodies ++ [site.declaration.body d.catalogue.table place site.names id]) := by
  obtain ⟨names, declaration⟩ := site
  rw [Site.symbol?_eq] at hid
  cases declaration with
  | interface node =>
      simp only [SimpleDeclaration.name?, SimpleDeclaration.kind] at hid
      simp only [Site.define, defineNamed]
      rw [hid]
      refine ⟨_, Definition.lower_get? hs rfl, h.append rfl ?_ rfl rfl rfl⟩
      dsimp only
      rw [h.typeParams]
      cases bodies <;> simp [SimpleDeclaration.typeParams]
  | klass node =>
      simp only [SimpleDeclaration.name?, SimpleDeclaration.kind] at hid
      simp only [Site.define, defineNamed]
      rw [hid]
      have hsome := SimpleDeclaration.body_superclass_isSome d.catalogue.table place names id
        (.klass node)
      have hparts := SimpleDeclaration.body_klass d.catalogue.table place names id node
      refine ⟨_, Definition.lower_get? hs hparts, ?_⟩
      dsimp only
      generalize (SimpleDeclaration.klass node).body d.catalogue.table place names id = body
        at hsome ⊢
      change body.superclass.isSome = node.superclass.isSome at hsome
      rw [← hsome]
      cases hsuper : body.superclass with
      | none =>
          have hown : body.bases = body.heritage := by simp [ClassBody.bases, hsuper]
          exact h.append hsuper rfl rfl (congrArg (s.bases ++ ·) hown) rfl
      | some superclass => exact h.prepend hsuper rfl rfl rfl rfl
  | _ => simp [SimpleDeclaration.kind, SymbolKind.shared] at hkind

/-- **One declaration after another adds its body** to the symbol that it belongs to. -/
lemma foldl_define_gathers {files : List ReadFile} {params : List String}
    (hid : (declareFiles files).table.IsTypeSymbol id) :
    ∀ (sites : List Site) {d : Definition} {s : Symbol} {bodies : List ClassBody},
      d.catalogue.declared = (declareFiles files).declared →
      d.catalogue.table.bare = (declareFiles files).table.bare →
      (∀ site ∈ sites, site.symbol? (declareFiles files) place.module = some id →
        site.declaration.kind.shared = .klass ∧ site.declaration.typeParams = params) →
      d.catalogue.table.get? id = some s → s.Gathers params bodies →
        ∃ t, (sites.foldl (Site.define place) d).catalogue.table.get? id = some t ∧
          t.Gathers params (bodies ++
            (sites.filter fun site =>
              site.symbol? (declareFiles files) place.module == some id).map fun site =>
                site.declaration.body (declareFiles files).table place site.names id)
  | [], _, s, bodies, _, _, _, hs, h => ⟨s, hs, by simpa using h⟩
  | site :: rest, d, s, bodies, hdeclared, hbare, hsites, hs, h => by
      have hfills : Catalogue.Fills [place.module] d.catalogue (site.define place d).catalogue :=
        site.define_fills d
      have hdeclared' := hfills.declared.trans hdeclared
      have hbare' := hfills.bare.trans hbare
      have hrest := fun other hother => hsites other (List.mem_cons_of_mem _ hother)
      have hsame := Site.symbol?_congr hdeclared site place.module
      by_cases hown : site.symbol? (declareFiles files) place.module = some id
      · obtain ⟨hkind, rfl⟩ := hsites site List.mem_cons_self hown
        obtain ⟨t, ht, hgathers⟩ := Site.define_gathers (hsame.trans hown) hkind hs h
        rw [SimpleDeclaration.body_congr hbare hid] at hgathers
        obtain ⟨u, hu, hrun⟩ := foldl_define_gathers hid rest hdeclared' hbare' hrest ht hgathers
        exact ⟨u, hu, by simpa [hown] using hrun⟩
      · have ht := (Site.define_get?_of_ne fun he => hown (hsame.symm.trans he)).trans hs
        obtain ⟨u, hu, hrun⟩ := foldl_define_gathers hid rest hdeclared' hbare' hrest ht h
        exact ⟨u, hu, by simpa [hown] using hrun⟩

end

/-! ## The symbol of a class -/

namespace Catalogue

/-- A class makes its symbol one. -/
def ClassesKnown (c : Catalogue) : Prop :=
  ∀ path id s, c.find? path .klass = some id → c.table.get? id = some s → s.kind = .klass

/-- Declaring keeps classes what they are: an interface that joins one changes nothing. -/
lemma ClassesKnown.declare {c : Catalogue} (hc : c.ClassesKnown) {keys : List DeclKey}
    {files : List Nat} (h : c.Registered keys files) (place : Place) (name : String)
    (kind : SymbolKind) (span : Span) : (c.declare place name kind span).1.ClassesKnown := by
  intro path id s hid hs
  cases hfound : c.find? (place.path name kind) kind with
  | some old =>
      simp only [Catalogue.declare, hfound] at hid hs
      exact hc path id s hid hs
  | none =>
      cases hjoin : (partner? kind).bind (c.find? (place.path name kind)) with
      | some joined =>
          simp only [Catalogue.declare, hfound, hjoin] at hid hs
          rw [find?_remember] at hid
          change SymbolTable.get? (ite _ _ _) id = some s at hs
          by_cases hklass : kind = .klass
          · rw [hklass, if_pos (beq_self_eq_true _), SymbolTable.get?_modify] at hs
            split_ifs at hs with hsame
            · obtain ⟨t, -, rfl⟩ := Option.map_eq_some_iff.mp hs
              rfl
            · rw [if_neg] at hid
              · exact hc path id s hid hs
              · rintro he
                rw [if_pos he] at hid
                exact hsame (Option.some.inj hid)
          · rw [if_neg (by simpa using hklass)] at hs
            rw [if_neg fun he => hklass (Prod.mk.inj he).2.symm] at hid
            exact hc path id s hid hs
      | none =>
          simp only [Catalogue.declare, hfound, hjoin, Catalogue.register] at hid hs
          rw [find?_remember] at hid
          change (c.table.push _).get? id = some s at hs
          rw [SymbolTable.get?_push] at hs
          split_ifs at hid with hkey
          · rw [if_pos (Option.some.inj hid).symm] at hs
            rw [← Option.some.inj hs]
            exact (Prod.mk.inj hkey).2.symm
          · -- a symbol that was there before has a smaller number
            obtain ⟨t, ht, -⟩ := h.symbol path .klass id hid
            rw [if_neg (Nat.ne_of_lt (SymbolTable.lt_size_of_get? ht))] at hs
            exact hc path id s hid hs

end Catalogue

/-- **A class makes its symbol one**, whether it is declared first or not. -/
lemma declareFiles_classesKnown (files : List ReadFile) : (declareFiles files).ClassesKnown :=
  (declareFiles_keeps
    (P := fun keys c => c.Registered keys (files.map (·.place.file)) ∧ c.ClassesKnown)
    (fun _ hf _ _ _ _ kind span hfile _ hc =>
      ⟨hc.1.declare kind span (hfile ▸ List.mem_map_of_mem hf), hc.2.declare hc.1 _ _ kind span⟩)
    ⟨Catalogue.registered_platform, fun _ _ _ hid => by cases hid⟩).2

/-! ### Declarations of one name -/

/-- A class or an interface with a name, in a namespace. -/
def Site.declares (names : List String) (name : String) (site : Site) : Bool :=
  site.names == names && site.declaration.name? == some name &&
    site.declaration.kind.shared == .klass

/-- **The classes and interfaces with a name in a namespace of a file**, in their order. -/
def ReadFile.declarationsAt (f : ReadFile) (names : List String) (name : String) :
    List SimpleDeclaration :=
  (f.sites.filter (Site.declares names name)).map (·.declaration)

/-- The path of a type in a namespace of a file. -/
def ReadFile.typePath (f : ReadFile) (names : List String) (name : String) : DeclPath :=
  ⟨f.place.module :: names ++ [name], .type⟩

section

variable {files : List ReadFile} {f : ReadFile} {names : List String} {name : String} {id : Nat}

/-- The path of a class or an interface says its name and the namespaces around it. -/
lemma Site.path?_eq_some_iff {site : Site} (hkind : site.declaration.kind.shared = .klass) :
    site.path? f.place.module = some (f.typePath names name) ↔ site.declares names name := by
  have hrole : site.declaration.kind.role = .type := by
    cases hcase : site.declaration.kind <;> simp_all [SymbolKind.shared, SymbolKind.role]
  simp only [Site.path?, Option.map_eq_some_iff, ReadFile.typePath, Site.declares, hkind, hrole,
    Bool.and_eq_true, beq_iff_eq, DeclPath.mk.injEq, and_true, List.cons.injEq, true_and,
    List.cons_append]
  constructor
  · rintro ⟨other, hother, he⟩
    obtain ⟨rfl, hlast⟩ := List.append_inj' he rfl
    exact ⟨rfl, (List.singleton_inj.mp hlast) ▸ hother⟩
  · rintro ⟨rfl, hname⟩
    exact ⟨name, hname, rfl⟩

/-- **The declarations of a class or interface** are those that lead to its symbol. -/
lemma Site.symbol?_eq_some_iff (hf : f ∈ files) {site : Site} (hsite : site ∈ f.sites) {s : Symbol}
    (hs : (declareFiles files).table.get? id = some s) (hpath : s.path = f.typePath names name)
    (hshared : s.kind.shared = .klass) (hexternal : s.externalName = none) :
    site.symbol? (declareFiles files) f.place.module = some id ↔ site.declares names name := by
  have hregistered := declareFiles_registered files
  constructor
  · intro hid
    obtain ⟨path, hsitepath, hfind⟩ := Option.bind_eq_some_iff.mp hid
    obtain ⟨t, ht, rfl, -, htshared⟩ := hregistered.symbol _ _ id hfind
    obtain rfl := Option.some.inj (hs.symm.trans ht)
    rw [hpath] at hsitepath
    exact (Site.path?_eq_some_iff (htshared.symm.trans hshared)).mp hsitepath
  · intro hdeclares
    have hkind : site.declaration.kind.shared = .klass := by
      simp only [Site.declares, Bool.and_eq_true, beq_iff_eq] at hdeclares
      exact hdeclares.2
    have hsitepath := (Site.path?_eq_some_iff (f := f) hkind).mpr hdeclares
    have hkey : (f.typePath names name, site.declaration.kind) ∈ files.flatMap ReadFile.keys :=
      List.mem_flatMap.mpr ⟨f, hf, sitesOf_keys hsite _ hsitepath⟩
    obtain ⟨other, hother⟩ := Option.isSome_iff_exists.mp ((hregistered.key _ _).mpr hkey)
    obtain ⟨t, ht, htpath, htexternal, htshared⟩ := hregistered.symbol _ _ other hother
    -- declarations that merge have one symbol for each path
    obtain rfl := (declareFiles_apart files).symbol id other s t hs ht hexternal htexternal
      (hpath.trans htpath.symm) (hshared.trans (htshared.trans hkind).symm)
    rw [Site.symbol?, hsitepath, Option.bind_some, hother]

/-- The declarations of a symbol, with their bodies, are those of its name. -/
lemma ReadFile.bodies_eq (hf : f ∈ files) {s : Symbol}
    (hs : (declareFiles files).table.get? id = some s) (hpath : s.path = f.typePath names name)
    (hklass : s.kind = .klass) (hexternal : s.externalName = none) :
    ((f.sites.filter fun site =>
        site.symbol? (declareFiles files) f.place.module == some id).map fun site =>
          site.declaration.body (declareFiles files).table f.place site.names id) =
      (f.declarationsAt names name).map fun d => d.body (collect files).1 f.place names id := by
  have hfilter : (f.sites.filter fun site =>
      site.symbol? (declareFiles files) f.place.module == some id) =
        f.sites.filter (Site.declares names name) := by
    refine List.filter_congr fun site hsite => ?_
    rw [Bool.eq_iff_iff, beq_iff_eq]
    exact Site.symbol?_eq_some_iff hf hsite hs hpath (by rw [hklass]; rfl) hexternal
  rw [hfilter, ReadFile.declarationsAt, List.map_map]
  refine List.map_congr_left fun site hsite => ?_
  have hdeclares := (List.mem_filter.mp hsite).2
  simp only [Site.declares, Bool.and_eq_true, beq_iff_eq] at hdeclares
  rw [hdeclares.1.1]
  exact (site.declaration.body_congr (collect_bare files) ⟨s, hs, .inl hklass⟩ f.place names).symm

/-- A class has a symbol, which says nothing before the second pass. -/
lemma ReadFile.exists_classSymbol (hf : f ∈ files) {node : ClassNode}
    (hnode : .klass node ∈ f.declarationsAt names name) :
    ∃ id s, (declareFiles files).find? (f.typePath names name) .klass = some id ∧
      (declareFiles files).table.get? id = some s ∧ s.path = f.typePath names name ∧
      s.kind = .klass ∧ s.externalName = none := by
  have hregistered := declareFiles_registered files
  obtain ⟨site, hsite, hnode⟩ := List.mem_map.mp hnode
  obtain ⟨hsite, hdeclares⟩ := List.mem_filter.mp hsite
  have hkind : site.declaration.kind = .klass := by
    rw [hnode]
    rfl
  have hsitepath := (Site.path?_eq_some_iff (f := f) (by rw [hkind]; rfl)).mpr hdeclares
  have hkey : (f.typePath names name, .klass) ∈ files.flatMap ReadFile.keys :=
    List.mem_flatMap.mpr ⟨f, hf, hkind ▸ sitesOf_keys hsite _ hsitepath⟩
  obtain ⟨id, hid⟩ := Option.isSome_iff_exists.mp ((hregistered.key _ _).mpr hkey)
  obtain ⟨s, hs, hpath, hexternal, -⟩ := hregistered.symbol _ _ id hid
  exact ⟨id, s, hid, hs, hpath, declareFiles_classesKnown files _ id s hid hs, hexternal⟩

/-- **The symbol of a class holds what all declarations of its name say**, each lowered by itself, in
their order. -/
theorem collect_gathers (hmodules : (files.map (·.place.module)).Nodup) (hf : f ∈ files)
    {params : List String} {node : ClassNode} (hnode : .klass node ∈ f.declarationsAt names name)
    (hparams : ∀ d ∈ f.declarationsAt names name, d.typeParams = params) :
    ∃ id s, (declareFiles files).find? (f.typePath names name) .klass = some id ∧
      (collect files).1.get? id = some s ∧ s.path = f.typePath names name ∧ s.kind = .klass ∧
      s.Gathers params ((f.declarationsAt names name).map fun d =>
        d.body (collect files).1 f.place names id) := by
  have hregistered := declareFiles_registered files
  obtain ⟨id, s, hid, hs, hpath, hklass, hexternal⟩ := ReadFile.exists_classSymbol hf hnode
  have howns : (declareFiles files).Owns f.place.module id :=
    ⟨f.typePath names name, .klass, hid, rfl⟩
  -- the file is defined by itself, from a symbol that says nothing
  obtain ⟨g, hg⟩ := exists_collected hf
  have heach := defineFiles_each hregistered files hmodules fun f _ => Catalogue.Untouched.refl _ _
  obtain ⟨e, huntouched, -, hown⟩ := (List.forall₂_iff_zip.mp heach).2 hg
  have hdefine := f.define_eq ⟨e, []⟩ fun key hkey => by
    rw [Catalogue.find?, huntouched.declared]
    exact (hregistered.key _ _).mpr (List.mem_flatMap.mpr ⟨f, hf, hkey⟩)
  have hsites : ∀ site ∈ f.sites, site.symbol? (declareFiles files) f.place.module = some id →
      site.declaration.kind.shared = .klass ∧ site.declaration.typeParams = params := by
    intro site hsite hsymbol
    have hdeclares := (Site.symbol?_eq_some_iff hf hsite hs hpath (by rw [hklass]; rfl)
      hexternal).mp hsymbol
    have hmem := List.mem_map_of_mem (f := (·.declaration)) (List.mem_filter.mpr ⟨hsite, hdeclares⟩)
    simp only [Site.declares, Bool.and_eq_true, beq_iff_eq] at hdeclares
    exact ⟨hdeclares.2, hparams _ hmem⟩
  obtain ⟨t, ht, hgathers⟩ := foldl_define_gathers ⟨s, hs, .inl hklass⟩ f.sites
    (d := ⟨e, []⟩) huntouched.declared huntouched.bare hsites
    ((huntouched.own id howns).trans hs) (.of_bare (declareFiles_bare files hs))
  rw [ReadFile.bodies_eq hf hs hpath hklass hexternal, List.nil_append] at hgathers
  have hfinal : (collect files).1.get? id = some t := by
    rw [← ht, ← hdefine]
    exact hown id howns
  obtain ⟨s', hs', htkind, htpath, -⟩ := collect_declared hfinal
  obtain rfl := Option.some.inj (hs.symm.trans hs')
  exact ⟨id, t, hid, hfinal, htpath.trans hpath, htkind.trans hklass, hgathers⟩

/-- No other class or interface stands at the path of a class. -/
lemma collect_class_unique {s u : Symbol} {other : Nat}
    (hs : (collect files).1.get? id = some s) (hpath : s.path = f.typePath names name)
    (hklass : s.kind.shared = .klass) (hu : (collect files).1.get? other = some u)
    (hupath : u.path = f.typePath names name) (huklass : u.kind.shared = .klass) : other = id := by
  obtain ⟨s', hs', hskind, hspath, -⟩ := collect_declared hs
  obtain ⟨u', hu', hukind, hupath', -⟩ := collect_declared hu
  -- the path of a platform type is its name alone
  have hown : ∀ id v, (declareFiles files).table.get? id = some v →
      v.path = f.typePath names name → v.externalName = none := by
    intro id v hv hvpath
    refine declareFiles_symbols (p := fun v => v.path = f.typePath names name →
      v.externalName = none) (fun _ h => h) (fun _ _ _ _ _ => rfl) (fun name target h => ?_)
      files hv hvpath
    simp [Symbol.external, ReadFile.typePath] at h
  exact (declareFiles_apart files).symbol other id u' s' hu' hs'
    (hown other u' hu' (hupath'.symm.trans hupath)) (hown id s' hs' (hspath.symm.trans hpath))
    (by rw [← hupath', ← hspath, hpath, hupath])
    (by rw [← hukind, ← hskind, hklass, huklass])

end

end Interop
