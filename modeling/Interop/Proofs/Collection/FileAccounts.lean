import Interop.Proofs.Closure
import Interop.Proofs.Collection.Definitions

/-!
# What the definitions of a file give account of

The definitions of a file are gone through one after another.  At each point every symbol of the file
can be traced to the declarations that were defined so far, and so can every note.

* `Site.FollowsOverload` — the body of a function that stands after overloads adds nothing.
* `Site.Step`, `Site.define_step` — what one declaration adds.
* `FileAccount`, `FileAccount.step` — what is traced after some declarations of a file.
* **`collect_accounts`** — what is traced when all files are defined.
* `Catalogue.Owns.file` — a symbol belongs to the file that declares it.
-/

namespace Interop

open Source

/-- A declaration is a function with a body, and follows another declaration of its symbol. -/
def Site.FollowsOverload (c : Catalogue) (module : String) (before : List Site) (site : Site) :
    Prop :=
  (∃ node, site.declaration = .function node ∧ node.body.isSome = true) ∧
    ∃ other ∈ before, other.symbol? c module = site.symbol? c module

/-- A text is written as a base type that is not a name. -/
def Site.HasUnnamedBase (site : Site) (source text : String) : Prop :=
  ∃ base, .base base ∈ site.declaration.parts ∧ base.name = none ∧ base.span.slice source = text

/-! ## One declaration -/

/-- **What a declaration adds** to the symbols and the notes. -/
structure Site.Step (c : Catalogue) (f : ReadFile) (done : List Site) (site : Site)
    (d result : Definition) (notes : List Diagnostic) : Prop where
  declared : result.catalogue.declared = d.catalogue.declared
  bare : result.catalogue.table.bare = d.catalogue.table.bare
  notes_eq : result.notes = d.notes ++ notes
  /-- What is noted stands at the place of a part. -/
  noted : ∀ note ∈ notes, ∃ part ∈ site.declaration.parts, part.span? = some note.span
  /-- A symbol keeps its members.  If it is that of the declaration it may get more. -/
  members : ∀ id s', result.catalogue.table.get? id = some s' →
    ∃ s more, d.catalogue.table.get? id = some s ∧ s'.members = s.members ++ more ∧
      ∀ m ∈ more, site.symbol? c f.place.module = some id ∧
        .place m.span ∈ site.declaration.parts
  /-- A text that is kept is noted, or is a base that is not a name. -/
  raws : ∀ id s', result.catalogue.table.get? id = some s' →
    ∃ s, d.catalogue.table.get? id = some s ∧ ∀ text ∈ s'.raws, text ∈ s.raws ∨
      (∃ note ∈ notes, note.span.slice f.place.source = text) ∨
        (site.symbol? c f.place.module = some id ∧ site.HasUnnamedBase f.place.source text)
  marks : ∀ id, site.symbol? c f.place.module = some id →
    ∃ s', result.catalogue.table.get? id = some s' ∧
      ∀ mark ∈ site.declaration.marks, mark.In s'.members
  bodies : (site.symbol? c f.place.module).isSome = true →
    ¬ site.FollowsOverload c f.place.module done →
      ∀ members, .body members ∈ site.declaration.parts →
        ∀ m ∈ members, m.isUnnamed = true → ∃ note ∈ notes, note.span = m.span

namespace Site.Step

variable {c : Catalogue} {f : ReadFile} {done : List Site} {site : Site} {d result : Definition}

/-- A declaration that fills its symbol in. -/
lemma of_filled {id : Nat} {s : Symbol} (hid : site.symbol? c f.place.module = some id)
    (hs : d.catalogue.table.get? id = some s)
    (hfills : Catalogue.Fills [f.place.module] d.catalogue result.catalogue)
    (hresult : Filled f.place d id site.declaration result) :
    ∃ notes, site.Step c f done d result notes := by
  obtain ⟨notes, change, a, rfl, hchange⟩ := hresult
  have hget : ∀ other, (d.catalogue.modify id change).table.get? other =
      if id = other then (d.catalogue.table.get? other).map change
      else d.catalogue.table.get? other := SymbolTable.get?_modify _ _ _
  refine ⟨notes, hfills.declared, hfills.bare, rfl, hchange.account.places, ?_, ?_, ?_, ?_⟩
  case refine_1 =>
    intro other s' hs'
    rw [hget] at hs'
    split_ifs at hs' with he
    · obtain ⟨before, hbefore, rfl⟩ := Option.map_eq_some_iff.mp hs'
      exact ⟨before, a.members, hbefore, (hchange.extend before).members,
        fun m hm => ⟨he ▸ hid, hchange.places m hm⟩⟩
    · exact ⟨s', [], hs', (List.append_nil _).symm, by simp⟩
  case refine_2 =>
    intro other s' hs'
    rw [hget] at hs'
    split_ifs at hs' with he
    · obtain ⟨before, hbefore, rfl⟩ := Option.map_eq_some_iff.mp hs'
      refine ⟨before, hbefore, fun text htext => ?_⟩
      refine (List.mem_append.mp ((hchange.extend before).raws htext)).imp_right fun hadded => ?_
      exact (hchange.account.raws text hadded).imp_right fun hbase => ⟨he ▸ hid, hbase⟩
    · exact ⟨s', hs', fun text htext => .inl htext⟩
  case refine_3 =>
    intro other hother
    obtain rfl := Option.some.inj (hid.symm.trans hother)
    refine ⟨change s, by rw [hget, if_pos rfl, hs]; rfl, fun mark hmark => ?_⟩
    rw [(hchange.extend s).members]
    exact (hchange.marks mark hmark).mono (List.subset_append_right _ _)
  case refine_4 => exact fun _ _ => hchange.account.bodies

/-- A declaration that changes no symbol. -/
lemma of_unchanged {notes : List Diagnostic} (hcatalogue : result.catalogue = d.catalogue)
    (hnotes : result.notes = d.notes ++ notes)
    (hplaces : ∀ note ∈ notes, note.span = site.declaration.span)
    (hsymbol : ∀ id, site.symbol? c f.place.module = some id →
      (∃ s, d.catalogue.table.get? id = some s) ∧ site.declaration.marks = [] ∧
        site.FollowsOverload c f.place.module done) : site.Step c f done d result notes := by
  refine ⟨by rw [hcatalogue], by rw [hcatalogue], hnotes, fun note hnote => ?_, ?_, ?_, ?_, ?_⟩
  · exact ⟨.place site.declaration.span, List.mem_cons_self, by rw [hplaces note hnote]; rfl⟩
  · rw [hcatalogue]
    exact fun id s hs => ⟨s, [], hs, (List.append_nil _).symm, by simp⟩
  · rw [hcatalogue]
    exact fun id s hs => ⟨s, hs, fun text htext => .inl htext⟩
  · intro id hid
    obtain ⟨⟨s, hs⟩, hnone, -⟩ := hsymbol id hid
    rw [hcatalogue, hnone]
    exact ⟨s, hs, by simp⟩
  · intro hsome hfollows
    obtain ⟨id, hid⟩ := Option.isSome_iff_exists.mp hsome
    exact absurd (hsymbol id hid).2.2 hfollows

end Site.Step

/-! ## Several declarations -/

/-- **What is traced after some declarations of a file**, in a table and in the notes of the file. -/
structure FileAccount (c : Catalogue) (f : ReadFile) (done : List Site) (table : SymbolTable)
    (notes : List Diagnostic) : Prop where
  bare : table.bare = c.table.bare
  /-- A note points to a part of a declaration. -/
  noted : ∀ note ∈ notes, ∃ site ∈ done, ∃ part ∈ site.declaration.parts,
    part.span? = some note.span
  /-- A member stands at the place of a part of a declaration of its symbol. -/
  members : ∀ id s, c.Owns f.place.module id → table.get? id = some s →
    ∀ m ∈ s.members, ∃ site ∈ done, site.symbol? c f.place.module = some id ∧
      .place m.span ∈ site.declaration.parts
  /-- A text that is kept is noted, or is a base that is not a name. -/
  raws : ∀ id s, c.Owns f.place.module id → table.get? id = some s →
    ∀ text ∈ s.raws, (∃ note ∈ notes, note.span.slice f.place.source = text) ∨
      ∃ site ∈ done, site.symbol? c f.place.module = some id ∧
        site.HasUnnamedBase f.place.source text
  /-- No element of a body is lost. -/
  marks : ∀ site ∈ done, ∀ id, site.symbol? c f.place.module = some id →
    ∃ s, table.get? id = some s ∧ ∀ mark ∈ site.declaration.marks, mark.In s.members
  /-- An element whose name has to be computed is noted. -/
  bodies : ∀ i (site : Site), done[i]? = some site →
    (site.symbol? c f.place.module).isSome = true →
      ¬ site.FollowsOverload c f.place.module (done.take i) →
        ∀ members, .body members ∈ site.declaration.parts →
          ∀ m ∈ members, m.isUnnamed = true → ∃ note ∈ notes, note.span = m.span

/-- A declaration belongs to the module of its file. -/
lemma Site.owns {c : Catalogue} {module : String} {site : Site} {id : Nat}
    (hid : site.symbol? c module = some id) : c.Owns module id := by
  obtain ⟨path, hpath, hfind⟩ := Option.bind_eq_some_iff.mp hid
  obtain ⟨name, -, rfl⟩ := Option.map_eq_some_iff.mp hpath
  exact ⟨_, _, hfind, rfl⟩

namespace FileAccount

variable {c : Catalogue} {f : ReadFile} {done : List Site} {table : SymbolTable}

/-- Where no symbol of the file is filled in yet. -/
lemma start (hbare : table.bare = c.table.bare)
    (hown : ∀ id s, c.Owns f.place.module id → table.get? id = some s → s.bare = s) :
    FileAccount c f [] table [] := by
  have hempty : ∀ id s, c.Owns f.place.module id → table.get? id = some s →
      s.members = [] ∧ s.raws = [] := by
    intro id s howns hs
    rw [← hown id s howns hs]
    exact ⟨rfl, rfl⟩
  refine ⟨hbare, by simp, fun id s howns hs => ?_, fun id s howns hs => ?_, by simp, by simp⟩
  · simp [(hempty id s howns hs).1]
  · simp [(hempty id s howns hs).2]

/-- A table that has the same symbols of the file. -/
lemma congr {notes : List Diagnostic} (h : FileAccount c f done table notes) {other : SymbolTable}
    (hbare : other.bare = c.table.bare)
    (hown : ∀ id, c.Owns f.place.module id → other.get? id = table.get? id) :
    FileAccount c f done other notes where
  bare := hbare
  noted := h.noted
  members id s howns hs := h.members id s howns (hown id howns ▸ hs)
  raws id s howns hs := h.raws id s howns (hown id howns ▸ hs)
  marks site hsite id hid := by
    rw [hown id (Site.owns hid)]
    exact h.marks site hsite id hid
  bodies := h.bodies

section

variable {d result : Definition}

/-- One more declaration. -/
lemma step (h : FileAccount c f done d.catalogue.table d.notes) {site : Site}
    {notes : List Diagnostic} (hstep : site.Step c f done d result notes) :
    FileAccount c f (done ++ [site]) result.catalogue.table result.notes where
  bare := hstep.bare.trans h.bare
  noted note hnote := by
    rw [hstep.notes_eq] at hnote
    rcases List.mem_append.mp hnote with hnote | hnote
    · obtain ⟨other, hother, hpart⟩ := h.noted note hnote
      exact ⟨other, List.mem_append_left _ hother, hpart⟩
    · exact ⟨site, by simp, hstep.noted note hnote⟩
  members id s howns hs m hm := by
    obtain ⟨before, more, hbefore, hmembers, hmore⟩ := hstep.members id s hs
    rw [hmembers] at hm
    rcases List.mem_append.mp hm with hm | hm
    · obtain ⟨other, hother, hplace⟩ := h.members id before howns hbefore m hm
      exact ⟨other, List.mem_append_left _ hother, hplace⟩
    · exact ⟨site, by simp, hmore m hm⟩
  raws id s howns hs text htext := by
    obtain ⟨before, hbefore, hraws⟩ := hstep.raws id s hs
    rw [hstep.notes_eq]
    rcases hraws text htext with hold | ⟨note, hnote, he⟩ | hbase
    · refine (h.raws id before howns hbefore text hold).imp ?_ ?_
      · exact fun ⟨note, hnote, he⟩ => ⟨note, List.mem_append_left _ hnote, he⟩
      · exact fun ⟨other, hother, hbase⟩ => ⟨other, List.mem_append_left _ hother, hbase⟩
    · exact .inl ⟨note, List.mem_append_right _ hnote, he⟩
    · exact .inr ⟨site, by simp, hbase⟩
  marks other hother id hid := by
    rcases List.mem_append.mp hother with hother | hother
    · obtain ⟨s, hs, hmarks⟩ := h.marks other hother id hid
      obtain ⟨s', hs', -⟩ := SymbolTable.get?_congr hstep.bare.symm hs
      obtain ⟨before, more, hbefore, hmembers, -⟩ := hstep.members id s' hs'
      obtain rfl := Option.some.inj (hs.symm.trans hbefore)
      refine ⟨s', hs', fun mark hmark => (hmarks mark hmark).mono ?_⟩
      rw [hmembers]
      exact List.subset_append_left _ _
    · obtain rfl := List.mem_singleton.mp hother
      exact hstep.marks id hid
  bodies i other hi hsome hfollows members hbody m hm hunnamed := by
    rw [hstep.notes_eq]
    rcases Nat.lt_or_ge i done.length with hlt | hge
    · rw [List.getElem?_append_left hlt] at hi
      rw [List.take_append_of_le_length (Nat.le_of_lt hlt)] at hfollows
      obtain ⟨note, hnote, he⟩ := h.bodies i other hi hsome hfollows members hbody m hm hunnamed
      exact ⟨note, List.mem_append_left _ hnote, he⟩
    · rw [List.getElem?_append_right hge, List.getElem?_singleton] at hi
      split_ifs at hi with hzero
      obtain rfl := Option.some.inj hi
      obtain rfl : i = done.length := by omega
      rw [List.take_left] at hfollows
      obtain ⟨note, hnote, he⟩ := hstep.bodies hsome hfollows members hbody m hm hunnamed
      exact ⟨note, List.mem_append_right _ hnote, he⟩

variable {keys : List DeclKey} {numbers : List Nat} (hc : c.Registered keys numbers)
include hc

/-- The symbol of a declaration is there, since it was registered. -/
lemma get?_symbol (h : FileAccount c f done d.catalogue.table d.notes) {site : Site} {id : Nat}
    (hid : site.symbol? c f.place.module = some id) :
    ∃ s, d.catalogue.table.get? id = some s := by
  obtain ⟨path, -, hfind⟩ := Option.bind_eq_some_iff.mp hid
  obtain ⟨s, hs, -⟩ := hc.symbol _ _ id hfind
  obtain ⟨s', hs', -⟩ := SymbolTable.get?_congr h.bare.symm hs
  exact ⟨s', hs'⟩

/-- **One more declaration of a file is defined.** -/
lemma define (hdeclared : d.catalogue.declared = c.declared)
    (h : FileAccount c f done d.catalogue.table d.notes) (site : Site) :
    FileAccount c f (done ++ [site]) (site.define f.place d).catalogue.table
      (site.define f.place d).notes := by
  have hfills : Catalogue.Fills [f.place.module] d.catalogue _ := site.define_fills d
  have hcases := site.define_cases f.place d
  generalize site.define f.place d = result at hfills hcases ⊢
  cases hcases with
  | filled hid hresult =>
      rw [Site.symbol?_congr hdeclared] at hid
      obtain ⟨s, hs⟩ := h.get?_symbol hc hid
      obtain ⟨notes, hstep⟩ := Site.Step.of_filled hid hs hfills hresult
      exact h.step hstep
  | skipped hid hcatalogue hnotes hplaces =>
      rw [Site.symbol?_congr hdeclared] at hid
      refine h.step (.of_unchanged hcatalogue hnotes hplaces fun id hsome => ?_)
      rw [hid] at hsome
      cases hsome
  | @overloaded id s node hid hs hmembers hnode hbody =>
      rw [Site.symbol?_congr hdeclared] at hid
      refine h.step (.of_unchanged rfl (List.append_nil _).symm (by simp) fun other hother => ?_)
      obtain rfl := Option.some.inj (hid.symm.trans hother)
      refine ⟨⟨s, hs⟩, by rw [hnode]; rfl, ⟨node, hnode, hbody⟩, ?_⟩
      -- the symbol has members already, so an earlier declaration leads to it
      obtain ⟨m, hm⟩ := List.exists_mem_of_ne_nil _ hmembers
      obtain ⟨earlier, hearlier, hsame, -⟩ := h.members id s (Site.owns hid) hs m hm
      exact ⟨earlier, hearlier, hsame.trans hid.symm⟩

/-- The declarations of a file are defined one after another. -/
lemma define_all : ∀ (sites : List Site) {done : List Site} {d : Definition},
    d.catalogue.declared = c.declared → FileAccount c f done d.catalogue.table d.notes →
      FileAccount c f (done ++ sites) (sites.foldl (Site.define f.place) d).catalogue.table
        (sites.foldl (Site.define f.place) d).notes
  | [], _, _, _, h => by simpa using h
  | site :: rest, done, d, hdeclared, h => by
      have hrest := define_all rest ((site.define_fills d).declared.trans hdeclared)
        (h.define hc hdeclared site)
      rwa [List.append_assoc] at hrest

end

end FileAccount

/-! ## All files -/

/-- **What is traced when all files are defined.** -/
theorem collect_accounts (files : List ReadFile) (hmodules : (files.map (·.place.module)).Nodup) :
    List.Forall₂ (fun f g => g.path = f.path ∧ g.file = f.place.file ∧
        FileAccount (declareFiles files) f f.sites (collect files).1 g.notes)
      files (collect files).2 := by
  have hregistered := declareFiles_registered files
  have heach := defineFiles_each hregistered files hmodules fun f _ => Catalogue.Untouched.refl _ _
  refine List.forall₂_iff_get.mpr ⟨heach.length_eq, fun i hi hi' => ?_⟩
  obtain ⟨e, huntouched, hg, hown⟩ := heach.get hi hi'
  have hg' : (collect files).2.get ⟨i, hi'⟩ = _ := hg
  rw [hg']
  have hmem : files.get ⟨i, hi⟩ ∈ files := List.get_mem _ _
  generalize files.get ⟨i, hi⟩ = f at *
  have hkeys : ∀ key ∈ f.keys, (e.find? key.1 key.2).isSome := fun key hkey => by
    rw [Catalogue.find?, huntouched.declared]
    exact (hregistered.key _ _).mpr (List.mem_flatMap.mpr ⟨f, hmem, hkey⟩)
  have hstart : FileAccount (declareFiles files) f [] e.table [] :=
    .start huntouched.bare fun id s howns hs =>
      declareFiles_bare files (huntouched.own id howns ▸ hs)
  have haccount := FileAccount.define_all hregistered f.sites (d := ⟨e, []⟩) huntouched.declared
    hstart
  rw [List.nil_append, ← f.define_eq ⟨e, []⟩ hkeys] at haccount
  exact ⟨rfl, rfl, haccount.congr (collect_bare files) hown⟩

/-! ## Symbols and their files -/

section

variable {files : List ReadFile}

/-- A symbol belongs to the file that declares it. -/
lemma Catalogue.Owns.file (htop : ∀ f ∈ files, f.IsTop)
    (hmodules : (files.map (·.place.module)).Nodup) {f : ReadFile} (hf : f ∈ files) {id : Nat}
    (howns : (declareFiles files).Owns f.place.module id) {s : Symbol}
    (hs : (collect files).1.get? id = some s) : s.file = f.place.file := by
  obtain ⟨path, kind, hfind, hhead⟩ := howns
  obtain ⟨t, ht, hpath, hexternal, -⟩ := (declareFiles_registered files).symbol path kind id hfind
  obtain ⟨t', ht', -, -, hfile, -⟩ := collect_declared hs
  obtain rfl := Option.some.inj (ht.symm.trans ht')
  have hnested := declareFiles_nested files htop hmodules
  obtain ⟨module, names, hmodule, -, hsegments⟩ := hnested.path id t ht hexternal
  obtain ⟨g, hg, hpair⟩ := List.mem_map.mp hmodule
  obtain ⟨hgfile, hgmodule⟩ := Prod.mk.inj hpair
  have hsame : g.place.module = f.place.module := by
    rw [← hpath, hsegments] at hhead
    exact hgmodule.trans (Option.some.inj hhead)
  obtain rfl := List.inj_on_of_nodup_map hmodules hg hf hsame
  rw [hfile, hgfile]

/-- A symbol that belongs to no file is as it was registered. -/
lemma exists_owner_of_bare {id : Nat} {s : Symbol} (hs : (collect files).1.get? id = some s)
    (hbare : s.bare ≠ s) : ∃ f ∈ files, (declareFiles files).Owns f.place.module id := by
  by_contra hnone
  have hsame := (defineFiles_fills files (declareFiles files)).others id
    fun module hmodule howns => by
    obtain ⟨f, hf, rfl⟩ := List.mem_map.mp hmodule
    exact hnone ⟨f, hf, howns⟩
  have hs' : (declareFiles files).table.get? id = some s := hsame.symm.trans hs
  exact hbare (declareFiles_bare files hs')

end

end Interop
