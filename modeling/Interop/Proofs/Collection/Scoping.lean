import Interop.Proofs.Closure
import Interop.Proofs.Collection.Definitions
import Mathlib

/-!
# Collected types are well scoped

A class, an interface and an alias declare type parameters, and what they say about their symbol
mentions no others.  Several declarations may share a symbol; their type parameters are then to be
the same, since the symbol has only one list of them.

* `TypeParamsAgree` — declarations that share a symbol list the same type parameters.
* `Symbol.Scoped` — a symbol that says nothing yet, or one with the type parameters of a declaration.
* `Site.define_scoped` — one more declaration keeps symbols scoped.
* **`collect_scoped`** — every type parameter in a symbol is one of its own.
-/

namespace Interop

open Source

/-- **Declarations that share a symbol list the same type parameters.** -/
def TypeParamsAgree (files : List ReadFile) : Prop :=
  ∀ f ∈ files, ∀ g ∈ files, ∀ site ∈ f.sites, ∀ other ∈ g.sites, ∀ id,
    site.symbol? (declareFiles files) f.place.module = some id →
      other.symbol? (declareFiles files) g.place.module = some id →
        site.declaration.typeParams = other.declaration.typeParams

/-- A symbol that says nothing yet, or has the type parameters of a declaration and mentions no
others. -/
def Symbol.Scoped (files : List ReadFile) (id : Nat) (s : Symbol) : Prop :=
  (s.typeParams = [] ∧ s.freeParams = []) ∨
    ∃ f ∈ files, ∃ site ∈ f.sites, site.symbol? (declareFiles files) f.place.module = some id ∧
      s.typeParams = site.declaration.typeParams ∧ s.freeParams ⊆ s.typeParams

/-- What a declaration adds to a symbol that is scoped leaves it scoped. -/
lemma Symbol.Scoped.fills {files : List ReadFile} {id : Nat} {s : Symbol} (hs : s.Scoped files id)
    (hagree : TypeParamsAgree files) {f : ReadFile} (hf : f ∈ files) {site : Site}
    (hsite : site ∈ f.sites)
    (hid : site.symbol? (declareFiles files) f.place.module = some id) {source : String}
    {notes : List Diagnostic} {change : Symbol → Symbol} {a : Addition}
    (hfills : site.declaration.Fills source notes change a) : (change s).Scoped files id := by
  refine .inr ⟨f, hf, site, hsite, hid, ?_⟩
  have hadded : a.freeParams ⊆ site.declaration.typeParams := hfills.account.free
  -- what was there before mentions no other type parameters either
  have hbefore : s.freeParams ⊆ site.declaration.typeParams ∧
      (s.typeParams ≠ [] → s.typeParams = site.declaration.typeParams) := by
    rcases hs with ⟨hparams, hfree⟩ | ⟨g, hg, other, hother, hotherid, hparams, hfree⟩
    · exact ⟨by simp [hfree], fun hne => absurd hparams hne⟩
    · have hsame := hagree f hf g hg site hsite other hother id hid hotherid
      rw [hsame, ← hparams]
      exact ⟨hfree, fun _ => rfl⟩
  have hparams : (change s).typeParams = site.declaration.typeParams := by
    rcases hfills.typeParams s with hparams | ⟨hkept, hne | hnone⟩
    · exact hparams
    · exact hkept.trans (hbefore.2 hne)
    · rw [hkept, hnone]
      by_contra hne
      exact hne ((hbefore.2 hne).trans hnone)
  refine ⟨hparams, fun name hname => ?_⟩
  rw [hparams]
  rcases List.mem_append.mp ((hfills.extend s).freeParams hname) with hname | hname
  · exact hbefore.1 hname
  · exact hadded hname

/-- One more declaration keeps symbols scoped. -/
lemma Site.define_scoped {files : List ReadFile} (hagree : TypeParamsAgree files) {f : ReadFile}
    (hf : f ∈ files) {site : Site} (hsite : site ∈ f.sites) {d : Definition}
    (hdeclared : d.catalogue.declared = (declareFiles files).declared)
    (hd : ∀ id s, d.catalogue.table.get? id = some s → s.Scoped files id) :
    ∀ id s, (site.define f.place d).catalogue.table.get? id = some s → s.Scoped files id := by
  have hcases := site.define_cases f.place d
  generalize site.define f.place d = result at hcases ⊢
  cases hcases with
  | skipped _ hcatalogue => rwa [hcatalogue]
  | overloaded => exact hd
  | @filled id _ hid hresult =>
      obtain ⟨notes, change, a, rfl, hfills⟩ := hresult
      rw [Site.symbol?_congr hdeclared] at hid
      intro other s hs
      simp only [Catalogue.modify, SymbolTable.get?_modify] at hs
      split_ifs at hs with he
      · obtain ⟨before, hbefore, rfl⟩ := Option.map_eq_some_iff.mp hs
        exact (hd other before hbefore).fills hagree hf hsite (he ▸ hid) hfills
      · exact hd other s hs

/-- A declaration with type parameters is one of a class, an interface or an alias. -/
lemma SimpleDeclaration.typeParams_eq_nil {declaration : SimpleDeclaration} {kind : SymbolKind}
    (hshared : kind.shared = declaration.kind.shared)
    (hkind : kind = .function ∨ kind = .variable ∨ kind = .enum) :
    declaration.typeParams = [] := by
  cases declaration with
  | enum | function | «variable» => rfl
  | interface | klass | «alias» =>
      rcases hkind with rfl | rfl | rfl <;> simp [SimpleDeclaration.kind, SymbolKind.shared] at hshared

/-- The second pass leaves symbols scoped. -/
lemma collect_symbol_scoped (files : List ReadFile) (hagree : TypeParamsAgree files) :
    ∀ id s, (collect files).1.get? id = some s → s.Scoped files id := by
  have hregistered := declareFiles_registered files
  refine defineFiles_keeps (P := fun d => ∀ id s, d.table.get? id = some s → s.Scoped files id)
    files (declareFiles files) rfl (fun f hf key hkey => ?_) (fun f hf site hsite d hdeclared =>
      Site.define_scoped hagree hf hsite hdeclared) fun id s hs => ?_
  · exact (hregistered.key _ _).mpr (List.mem_flatMap.mpr ⟨f, hf, hkey⟩)
  · rw [← declareFiles_bare files hs]
    exact .inl ⟨rfl, rfl⟩

/-- The declarations of a symbol are of its kind, up to merging. -/
lemma Site.symbol?_shared {files : List ReadFile} {site : Site} {module : String} {id : Nat}
    {s : Symbol} (hid : site.symbol? (declareFiles files) module = some id)
    (hs : (collect files).1.get? id = some s) : s.kind.shared = site.declaration.kind.shared := by
  obtain ⟨path, -, hfind⟩ := Option.bind_eq_some_iff.mp hid
  obtain ⟨t, ht, -, -, hshared⟩ := (declareFiles_registered files).symbol _ _ id hfind
  obtain ⟨t', ht', hkind, -⟩ := collect_declared hs
  obtain rfl := Option.some.inj (ht.symm.trans ht')
  rw [hkind, hshared]

/-- **Collected types are well scoped.**  If declarations that share a symbol list the same type
parameters, then a type parameter that is free in the members or the bases of a symbol, or in what
an alias stands for, is one of the type parameters of the symbol.  In a function, a variable or an
enum no type parameter is free. -/
theorem collect_scoped (files : List ReadFile) (hagree : TypeParamsAgree files) :
    ∀ id s, (collect files).1.get? id = some s →
      (∀ m ∈ s.members, m.freeParams ⊆ s.typeParams) ∧
      (∀ base ∈ s.bases, base.freeParams ⊆ s.typeParams) ∧
      (∀ body, s.aliased = some body → body.freeParams ⊆ s.typeParams) ∧
      (s.kind = .function ∨ s.kind = .variable ∨ s.kind = .enum → s.freeParams = []) := by
  intro id s hs
  have hscoped := collect_symbol_scoped files hagree id s hs
  have hfree : s.freeParams ⊆ s.typeParams := by
    rcases hscoped with ⟨-, hfree⟩ | ⟨_, _, _, _, _, _, hfree⟩
    · simp [hfree]
    · exact hfree
  refine ⟨fun m hm name hname => ?_, fun base hbase name hname => ?_,
    fun body hbody name hname => ?_, fun hkind => ?_⟩
  · refine hfree (List.mem_append_left _ ?_)
    exact Member.mem_freeParamsAll.mpr ⟨m, hm, hname⟩
  · refine hfree (List.mem_append_right _ (List.mem_append_left _ ?_))
    exact Ty.mem_freeParamsAll.mpr ⟨base, hbase, hname⟩
  · refine hfree (List.mem_append_right _ (List.mem_append_right _ ?_))
    exact Ty.mem_freeParamsAll.mpr ⟨body, by simp [hbody], hname⟩
  · rcases hscoped with ⟨-, hfree⟩ | ⟨f, hf, site, hsite, hid, hparams, hfree⟩
    · exact hfree
    · have hnone := SimpleDeclaration.typeParams_eq_nil (Site.symbol?_shared hid hs) hkind
      rw [hparams, hnone] at hfree
      exact List.subset_nil.mp hfree

set_option maxRecDepth 2000 in
/-- Two blocks of one interface, with the same type parameter. -/
theorem collect_scoped_two_blocks :
    let file : SourceFile := ⟨"a", "interface A<T> { x: T } interface A<T> { y: this }"⟩
    ∃ program, file.read = .ok program ∧
      let files := placeFiles [file] [program]
      TypeParamsAgree files ∧ ∃ s, (collect files).1.get? 18 = some s ∧ s.typeParams = ["T"] ∧
        s.freeParams = ["T", "T"] ∧ ∀ m ∈ s.members, m.freeParams ⊆ s.typeParams := by
  intro file
  let first : InterfaceNode := ⟨⟨0, 23⟩, "A", [⟨"T", []⟩], [],
    [.property ⟨17, 21⟩ (.identifier "x") false false (some ⟨⟨20, 21⟩, .reference ["T"] []⟩)]⟩
  let second : InterfaceNode := ⟨⟨24, 50⟩, "A", [⟨"T", []⟩], [],
    [.property ⟨41, 48⟩ (.identifier "y") false false (some ⟨⟨44, 48⟩, .this⟩)]⟩
  let program : Program :=
    ⟨[.declaration false (.interface first), .declaration false (.interface second)]⟩
  have hread : file.read = .ok program :=
    SourceFile.read_of_parse (by cbv) (by cbv) (by decide +kernel)
  have hstem : moduleStem file.path = "a" := (moduleStem_of_fileName (by cbv)).trans (by decide)
  refine ⟨program, hread, ?_⟩
  rw [placeFiles_singleton file program hstem]
  intro files
  have hparams : ∀ f ∈ files, ∀ site ∈ f.sites, site.declaration.typeParams = ["T"] := by
    intro f hf site hsite
    obtain rfl := List.mem_singleton.mp hf
    have hsites : site ∈ [(⟨[], .interface first⟩ : Site), ⟨[], .interface second⟩] := hsite
    simp only [List.mem_cons, List.not_mem_nil, or_false] at hsites
    rcases hsites with rfl | rfl <;> rfl
  have hagree : TypeParamsAgree files := fun f hf g hg site hsite other hother _ _ _ =>
    (hparams f hf site hsite).trans (hparams g hg other hother).symm
  have hsymbol : ((collect files).1.get? 18).map (fun s => (s.typeParams, s.freeParams)) =
      some (["T"], ["T", "T"]) := by
    decide +kernel
  obtain ⟨s, hs, hboth⟩ := Option.map_eq_some_iff.mp hsymbol
  obtain ⟨htypeParams, hfree⟩ := Prod.mk.inj hboth
  exact ⟨hagree, s, hs, htypeParams, hfree, (collect_scoped files hagree 18 s hs).1⟩

end Interop
