import Interop.Proofs.Filling

/-!
# The declarations of a file, one after another

The second pass walks through the statements of a file and into its namespaces.  What it does there
depends on the names of the namespaces alone, so it is the same as going through a list of
declarations, each with the names around it.

* `SimpleDeclaration`, `Site` — a declaration that belongs to one symbol, and where it stands.
* `sitesOf`, `ReadFile.sites` — the declarations of statements, and of a file.
* `Site.define` — the definition of one of them.
* **`defineAll_sites`** — the second pass defines one after another.
-/

namespace Interop

open Source

/-! ## Sites -/

/-- A declaration that belongs to one symbol.  Variables that are declared together are declarations
of their own. -/
inductive SimpleDeclaration where
  | interface (node : InterfaceNode)
  | klass (node : ClassNode)
  | alias (node : AliasNode)
  | enum (node : EnumNode)
  | function (node : FunctionNode)
  | variable (kind : VariableKind) (node : VariableNode)

namespace SimpleDeclaration

/-- The name that is declared.  Classes and functions may go without one, and a variable that takes
a value apart has none of its own. -/
def name? : SimpleDeclaration → Option String
  | .interface node => some node.name
  | .klass node => node.name
  | .alias node => some node.name
  | .enum node => some node.name
  | .function node => node.name
  | .variable _ node => node.binding.name?

/-- The kind of the symbol. -/
def kind : SimpleDeclaration → SymbolKind
  | .interface _ => .interface
  | .klass _ => .klass
  | .alias _ => .alias
  | .enum _ => .enum
  | .function _ => .function
  | .variable .. => .variable

/-- The names of the type parameters of a class, an interface or an alias. -/
def typeParams : SimpleDeclaration → List String
  | .interface node => node.typeParams.map (·.name)
  | .klass node => node.typeParams.map (·.name)
  | .alias node => node.typeParams.map (·.name)
  | .enum _ | .function _ | .variable .. => []

end SimpleDeclaration

/-- A declaration and the namespaces around it. -/
structure Site where
  names : List String
  declaration : SimpleDeclaration

mutual

/-- The declarations in a statement. -/
def statementSites (names : List String) : Statement → List Site
  | .declaration _ d => declarationSites names d
  | _ => []

/-- A declaration, or those inside it. -/
def declarationSites (names : List String) : Declaration → List Site
  | .nameSpace _ name body =>
    match nestingName? name with
    | some name => sitesOf (names ++ [name]) body
    | none => sitesOf names body
  | .interface node => [⟨names, .interface node⟩]
  | .klass node => [⟨names, .klass node⟩]
  | .alias node => [⟨names, .alias node⟩]
  | .enum node => [⟨names, .enum node⟩]
  | .function node => [⟨names, .function node⟩]
  | .variables kind nodes => nodes.map fun node => ⟨names, .variable kind node⟩

/-- The declarations in statements, in their order. -/
def sitesOf (names : List String) : List Statement → List Site
  | [] => []
  | s :: rest => statementSites names s ++ sitesOf names rest

end

/-- The declarations of a file. -/
def ReadFile.sites (f : ReadFile) : List Site :=
  sitesOf f.place.names f.program.body

namespace Site

/-- Where a declaration of a file stands. -/
def place (site : Site) (place : Place) : Place :=
  { place with names := site.names, parent := none }

/-- The path of a declaration with a name. -/
def path? (site : Site) (module : String) : Option DeclPath :=
  site.declaration.name?.map fun name =>
    ⟨module :: site.names ++ [name], site.declaration.kind.role⟩

/-- The symbol of a declaration. -/
def symbol? (site : Site) (c : Catalogue) (module : String) : Option Nat :=
  (site.path? module).bind fun path => c.find? path site.declaration.kind

/-- Define the symbol of a declaration. -/
def define (place : Place) (d : Definition) (site : Site) : Definition :=
  let place := site.place place
  match site.declaration with
  | .interface node =>
    defineNamed place d (some node.name) .interface (defineInterface place d · node)
  | .klass node => defineNamed place d node.name .klass (defineClass place d · node)
  | .alias node => defineNamed place d (some node.name) .alias (defineAlias place d · node)
  | .enum node => defineNamed place d (some node.name) .enum (defineEnum d · node)
  | .function node => defineNamed place d node.name .function (defineFunction place d · node)
  | .variable kind node => defineVariable place (kind == .const) d node

end Site

/-! ## Keys -/

private lemma simpleSite_keys {module : String} {names : List String} {site : Site}
    {declaration : SimpleDeclaration} {d : Declaration} (h : site ∈ [⟨names, declaration⟩])
    (hnames : ∀ name, declaration.name? = some name → (name, declaration.kind) ∈ namesOf d) :
    ∀ path, site.path? module = some path →
      (path, site.declaration.kind) ∈ simpleKeys module names d := by
  obtain rfl := List.mem_singleton.mp h
  intro path hpath
  obtain ⟨name, hname, rfl⟩ := Option.map_eq_some_iff.mp hpath
  exact List.mem_map.mpr ⟨(name, declaration.kind), hnames name hname, rfl⟩

mutual

private lemma statementSites_keys {module : String} : ∀ {names : List String} {s : Statement}
    {site : Site}, site ∈ statementSites names s → ∀ path, site.path? module = some path →
      (path, site.declaration.kind) ∈ statementKeys module names s
  | _, .declaration _ _, _, h => declarationSites_keys h
  | _, .global _, _, h => by cases h
  | _, .exportAssignment _, _, h => by cases h
  | _, .otherExport _, _, h => by cases h
  | _, .imports _, _, h => by cases h
  | _, .block _, _, h => by cases h
  | _, .compound _ _, _, h => by cases h

private lemma declarationSites_keys {module : String} : ∀ {names : List String} {d : Declaration}
    {site : Site}, site ∈ declarationSites names d → ∀ path, site.path? module = some path →
      (path, site.declaration.kind) ∈ declarationKeys module names d
  | names, .nameSpace _ name body, site, h => by
      simp only [declarationSites, declarationKeys] at h ⊢
      cases hname : nestingName? name with
      | none =>
          rw [hname] at h
          exact sitesOf_keys h
      | some inner =>
          rw [hname] at h
          exact fun path hpath => List.mem_cons_of_mem _ (sitesOf_keys h path hpath)
  | _, .interface _, _, h => simpleSite_keys h (by rintro _ ⟨⟩; exact List.mem_singleton.mpr rfl)
  | _, .klass _, _, h => simpleSite_keys h fun name hname =>
      List.mem_map.mpr ⟨name, Option.mem_toList.mpr hname, rfl⟩
  | _, .alias _, _, h => simpleSite_keys h (by rintro _ ⟨⟩; exact List.mem_singleton.mpr rfl)
  | _, .enum _, _, h => simpleSite_keys h (by rintro _ ⟨⟩; exact List.mem_singleton.mpr rfl)
  | _, .function _, _, h => simpleSite_keys h fun name hname =>
      List.mem_map.mpr ⟨name, Option.mem_toList.mpr hname, rfl⟩
  | names, .variables kind nodes, site, h => by
      obtain ⟨node, hnode, rfl⟩ := List.mem_map.mp h
      refine simpleSite_keys (List.mem_singleton.mpr rfl) fun name hname => ?_
      exact List.mem_map.mpr ⟨name, List.mem_filterMap.mpr ⟨node, hnode, hname⟩, rfl⟩

/-- The key of a declaration is among those of the statements around it. -/
lemma sitesOf_keys {module : String} : ∀ {names : List String} {statements : List Statement}
    {site : Site}, site ∈ sitesOf names statements → ∀ path, site.path? module = some path →
      (path, site.declaration.kind) ∈ keysOf module names statements
  | _, _ :: _, _, h, path, hpath => by
      rcases List.mem_append.mp h with h | h
      · exact List.mem_append_left _ (statementSites_keys h path hpath)
      · exact List.mem_append_right _ (sitesOf_keys h path hpath)

end

/-! ## The second pass -/

section

variable {place : Place}

lemma Site.define_fills (d : Definition) (site : Site) :
    Catalogue.Fills [place.module] d.catalogue (site.define place d).catalogue := by
  have hkeeps := Catalogue.Fills.keepsDefining d.catalogue place.module
  have hplace : (site.place place).module = place.module := rfl
  have hrefl := Catalogue.Fills.refl [place.module] d.catalogue
  obtain ⟨names, declaration⟩ := site
  cases declaration with
  | interface node => exact defineSimple_keeps hkeeps hplace (.interface node) hrefl
  | klass node => exact defineSimple_keeps hkeeps hplace (.klass node) hrefl
  | «alias» node => exact defineSimple_keeps hkeeps hplace (.alias node) hrefl
  | enum node => exact defineSimple_keeps hkeeps hplace (.enum node) hrefl
  | function node => exact defineSimple_keeps hkeeps hplace (.function node) hrefl
  | «variable» kind node => exact defineVariable_keeps hkeeps hplace _ node hrefl

lemma foldl_define_fills (place : Place) : ∀ (sites : List Site) (d : Definition),
    Catalogue.Fills [place.module] d.catalogue (sites.foldl (Site.define place) d).catalogue
  | [], _ => .refl _ _
  | site :: rest, d => (site.define_fills d).trans (foldl_define_fills place rest _)

/-- Variables that are declared together are defined one after another. -/
lemma foldl_defineVariable (parent : Option Nat) (names : List String) (kind : VariableKind) :
    ∀ (nodes : List VariableNode) (d : Definition),
      nodes.foldl (defineVariable { place with parent, names } (kind == .const)) d =
        (nodes.map fun node => (⟨names, .variable kind node⟩ : Site)).foldl (Site.define place) d
  | [], _ => rfl
  | _ :: rest, _ => foldl_defineVariable parent names kind rest _

mutual

private lemma defineStatement_sites : ∀ (parent : Option Nat) (names : List String)
    (s : Statement) (d : Definition),
      (∀ key ∈ statementKeys place.module names s, (d.catalogue.find? key.1 key.2).isSome) →
        defineStatement { place with parent, names } d s =
          (statementSites names s).foldl (Site.define place) d
  | parent, names, .declaration _ declaration, d, h =>
      defineDeclaration_sites parent names declaration d h
  | _, _, .global _, _, _ => rfl
  | _, _, .exportAssignment _, _, _ => rfl
  | _, _, .otherExport _, _, _ => rfl
  | _, _, .imports _, _, _ => rfl
  | _, _, .block _, _, _ => rfl
  | _, _, .compound _ _, _, _ => rfl

private lemma defineDeclaration_sites : ∀ (parent : Option Nat) (names : List String)
    (declaration : Declaration) (d : Definition),
      (∀ key ∈ declarationKeys place.module names declaration,
        (d.catalogue.find? key.1 key.2).isSome) →
        defineDeclaration { place with parent, names } d declaration =
          (declarationSites names declaration).foldl (Site.define place) d
  | parent, names, .nameSpace _ name body, d, h => by
      simp only [declarationKeys] at h
      simp only [defineDeclaration, declarationSites]
      cases hname : nestingName? name with
      | none =>
          rw [hname] at h
          exact defineAll_sites parent names body d h
      | some inner =>
          rw [hname] at h
          obtain ⟨id, hid⟩ := Option.isSome_iff_exists.mp (h _ List.mem_cons_self)
          have hfound : d.catalogue.find?
              (({ place with parent, names } : Place).path inner .nameSpace) .nameSpace = some id :=
            hid
          simp only [hfound]
          exact defineAll_sites (some id) (names ++ [inner]) body d fun key hkey =>
            h key (List.mem_cons_of_mem _ hkey)
  | _, _, .interface _, _, _ => rfl
  | _, _, .klass _, _, _ => rfl
  | _, _, .alias _, _, _ => rfl
  | _, _, .enum _, _, _ => rfl
  | _, _, .function _, _, _ => rfl
  | parent, names, .variables kind nodes, d, _ => foldl_defineVariable parent names kind nodes d

/-- **The second pass defines one declaration after another**, once every namespace has its
symbol. -/
lemma defineAll_sites : ∀ (parent : Option Nat) (names : List String)
    (statements : List Statement) (d : Definition),
      (∀ key ∈ keysOf place.module names statements, (d.catalogue.find? key.1 key.2).isSome) →
        defineAll { place with parent, names } d statements =
          (sitesOf names statements).foldl (Site.define place) d
  | _, _, [], _, _ => rfl
  | parent, names, s :: rest, d, h => by
      have hs := defineStatement_sites parent names s d fun key hkey =>
        h key (List.mem_append_left _ hkey)
      have hfills := foldl_define_fills place (statementSites names s) d
      rw [defineAll, hs, sitesOf, List.foldl_append]
      refine defineAll_sites parent names rest _ fun key hkey => ?_
      rw [Catalogue.find?, hfills.declared]
      exact h key (List.mem_append_right _ hkey)

end

end

/-! ## Files -/

/-- The definitions of a file define one declaration after another. -/
lemma ReadFile.define_eq (f : ReadFile) (d : Definition)
    (h : ∀ key ∈ f.keys, (d.catalogue.find? key.1 key.2).isSome) :
    defineAll f.place d f.program.body = f.sites.foldl (Site.define f.place) d :=
  defineAll_sites f.place.parent f.place.names f.program.body d h

/-- The symbol of a declaration stays the same. -/
lemma Site.symbol?_congr {c d : Catalogue} (h : d.declared = c.declared) (site : Site)
    (module : String) : site.symbol? d module = site.symbol? c module := by
  simp only [Site.symbol?, Catalogue.find?, h]

/-- **Induction over the declarations of a file.** -/
lemma foldl_define_keeps {place : Place} {P : Definition → Prop} {c : Catalogue} :
    ∀ (sites : List Site) (d : Definition), d.catalogue.declared = c.declared →
      (∀ site ∈ sites, ∀ d : Definition, d.catalogue.declared = c.declared → P d →
        P (site.define place d)) → P d → P (sites.foldl (Site.define place) d)
  | [], _, _, _, hd => hd
  | site :: rest, d, hdeclared, hstep, hd =>
      foldl_define_keeps rest _ ((site.define_fills d).declared.trans hdeclared)
        (fun other hother => hstep other (List.mem_cons_of_mem _ hother))
        (hstep site List.mem_cons_self d hdeclared hd)

/-- **Induction over the declarations of all files**, for what does not depend on the notes. -/
lemma defineFiles_keeps {P : Catalogue → Prop} {c : Catalogue} :
    ∀ (files : List ReadFile) (d : Catalogue), d.declared = c.declared →
      (∀ f ∈ files, ∀ key ∈ f.keys, (c.find? key.1 key.2).isSome) →
      (∀ f ∈ files, ∀ site ∈ f.sites, ∀ d : Definition, d.catalogue.declared = c.declared →
        P d.catalogue → P (site.define f.place d).catalogue) → P d → P (defineFiles d files).1
  | [], _, _, _, _, hd => hd
  | f :: rest, d, hdeclared, hkeys, hstep, hd => by
      have hfirst := foldl_define_keeps (P := fun d => P d.catalogue) f.sites ⟨d, []⟩ hdeclared
        (hstep f List.mem_cons_self) hd
      have hfills := foldl_define_fills f.place f.sites ⟨d, []⟩
      rw [← f.define_eq ⟨d, []⟩ fun key hkey => by
        rw [Catalogue.find?, hdeclared]
        exact hkeys f List.mem_cons_self key hkey] at hfirst hfills
      exact defineFiles_keeps rest _ (hfills.declared.trans hdeclared)
        (fun g hg => hkeys g (List.mem_cons_of_mem _ hg))
        (fun g hg => hstep g (List.mem_cons_of_mem _ hg)) hfirst

end Interop
