import Interop.Proofs.Concurrence

/-!
# What merged types are rendered as

What a type is rendered as does not depend on aliases that are being expanded and that the type does
not lead to.  So a type is rendered as what it is looked through to; and a union, as the union of
the types that its members are merged into, apart from what its note says.

* `Session.Merges` — what types are merged into.
* **`rendered_elsewhere`** — a type is rendered alike during expansions that it does not lead to.
* `shownPhrase`, `Session.Merges.gives_union` — what a union is rendered as, from what its members
  are merged into.
* `Session.ComesTo`, **`rendered_comesTo`** — a type is rendered as what it is merged into.
* `shownPhrase_flatten` — unions that are put together from groups of types.
-/

namespace Interop

open Filter Relation Work

/-! ## Merging -/

namespace DistinctTypes

variable {key : Ty → String} {tys : List Ty} {d : DistinctTypes}

/-- Types with different keys are all kept. -/
lemma collect_entries : ∀ {after before : List (String × Ty)},
    (∀ entry ∈ after, entry.1 = key entry.2) → ((before ++ after).map (·.1)).Nodup →
      collect key ⟨before⟩ (after.map (·.2)) = ⟨before ++ after⟩
  | [], before, _, _ => by simp [collect]
  | entry :: after, before, hkeys, hnodup => by
      have hentry : entry.1 = key entry.2 := hkeys entry List.mem_cons_self
      have hnew : key entry.2 ∉ DistinctTypes.keys ⟨before⟩ := by
        rw [← hentry]
        rw [List.map_append, List.map_cons] at hnodup
        exact fun hmem => (List.nodup_append.mp hnodup).2.2 _ hmem _ List.mem_cons_self rfl
      have hinsert : DistinctTypes.insert ⟨before⟩ (key entry.2) entry.2 = ⟨before ++ [entry]⟩ := by
        rw [DistinctTypes.insert, if_neg (by simpa using hnew), ← hentry]
      have hrest : collect key ⟨before ++ [entry]⟩ (after.map (·.2)) =
          ⟨before ++ [entry] ++ after⟩ :=
        collect_entries (fun other hother => hkeys other (List.mem_cons_of_mem _ hother))
          (by simpa using hnodup)
      simp only [collect, List.map_cons, List.foldl_cons] at hrest ⊢
      rw [hinsert, hrest, List.append_assoc]
      rfl

/-- What was merged is merged into itself. -/
lemma Collected.collect_types (h : Collected key tys d) :
    DistinctTypes.collect key {} d.types = d := by
  have hentries : ∀ entry ∈ d.entries, entry.1 = key entry.2 := fun entry hentry =>
    (h.entries entry hentry).1
  exact collect_entries hentries h.nodup

end DistinctTypes

namespace Session

variable {s : Session} {tys : List Ty} {d d' : DistinctTypes}

/-- **What types are merged into** in all sessions that are alike, with every bound that is large
enough. -/
def Merges (s : Session) (tys : List Ty) (d : DistinctTypes) : Prop :=
  ∀ᶠ depth in atTop, (DistinctTypes.ofTypes (renderWithin depth) depth tys).Gives s.Like d

lemma Merges.unique (h : s.Merges tys d) (h' : s.Merges tys d') : d = d' :=
  Gives.eventually_unique h h'

/-- Types are merged by the keys of what they count as. -/
lemma merges_collect (parts : Ty → List Ty) {rendered : Ty → Rendered}
    (hparts : ∀ ty ∈ tys, ∀ᶠ steps in atTop,
      components s.table s.expanding steps ty = some (parts ty))
    (hrendered : ∀ part ∈ tys.flatMap parts, s.Renders part .key (rendered part)) :
    s.Merges tys (DistinctTypes.collect (fun ty => (rendered ty).text) {} (tys.flatMap parts)) := by
  filter_upwards [eventually_forall_mem hparts,
    eventually_forall_mem fun part hpart => (hrendered part hpart).key]
    with depth hfound hkey using gives_ofTypes (Like.fixes s) _ hfound hkey

/-- Types without what several of them count as. -/
lemma followAliases_of_components {table : SymbolTable} {expanding : List Nat} :
    ∀ {steps : Nat} {ty : Ty} {parts : List Ty}, components table expanding steps ty = some parts →
      ∀ part ∈ parts, followAliases table expanding part = part ∧ part.isUnion = false
  | 0, _, _, h => by cases h
  | steps + 1, ty, parts, h => by
      have hidem := followAliases_idem table expanding ty
      simp only [components] at h
      generalize followAliases table expanding ty = followed at h hidem
      have hmembers : ∀ {members : List Ty}, (members.mapM (components table expanding steps)).map
          List.flatten = some parts → ∀ part ∈ parts,
            followAliases table expanding part = part ∧ part.isUnion = false := by
        intro members hparts
        obtain ⟨lists, hlists, rfl⟩ := Option.map_eq_some_iff.mp hparts
        exact forall_mem_flatten_mapM hlists fun _ _ _ hys => followAliases_of_components hys
      cases followed with
      | union members | intersection members => exact hmembers h
      | _ =>
          obtain rfl := Option.some.inj h
          exact List.forall_mem_singleton.mpr ⟨hidem, rfl⟩

section

variable (hacyclic : ∀ id, ¬ TransGen s.table.Uses id id) (hnamed : s.Named)
  (hbatch : s.log.mode = .batch)
include hacyclic hnamed hbatch

/-- What types are merged into, they count as. -/
lemma Merges.mem_components (h : s.Merges tys d) {part : Ty} (hpart : part ∈ d.types) :
    ∃ ty ∈ tys, ∃ steps list, components s.table s.expanding steps ty = some list ∧
      part ∈ list := by
  choose rendered hrendered using fun ty => s.exists_renders hacyclic hnamed hbatch ty .key
  choose parts hparts using
    components_eventually (SymbolTable.unfolds_wellFounded hacyclic) s.expanding
  obtain rfl := h.unique (merges_collect parts (fun ty _ => hparts ty) fun part _ => hrendered part)
  obtain ⟨ty, hty, hmem⟩ := List.mem_flatMap.mp
    ((DistinctTypes.Collected.ofList _ (tys.flatMap parts)).mem_of_mem_types hpart)
  obtain ⟨steps, hfound⟩ := (hparts ty).exists
  exact ⟨ty, hty, steps, parts ty, hfound, hmem⟩

/-- **Types are merged into something**, and that into itself. -/
lemma exists_merges (tys : List Ty) : ∃ d, s.Merges tys d ∧ s.Merges d.types d := by
  choose rendered hrendered using fun ty => s.exists_renders hacyclic hnamed hbatch ty .key
  choose parts hparts using
    components_eventually (SymbolTable.unfolds_wellFounded hacyclic) s.expanding
  have hmerges : ∀ tys, s.Merges tys
      (DistinctTypes.collect (fun ty => (rendered ty).text) {} (tys.flatMap parts)) :=
    fun tys => merges_collect parts (fun ty _ => hparts ty) fun part _ => hrendered part
  have hcollected := DistinctTypes.Collected.ofList (fun ty => (rendered ty).text)
    (tys.flatMap parts)
  have hself := hmerges (DistinctTypes.collect (fun ty => (rendered ty).text) {}
    (tys.flatMap parts)).types
  have hcomponent : ∀ part ∈ tys.flatMap parts, parts part = [part] := by
    intro part hpart
    obtain ⟨ty, -, hmem⟩ := List.mem_flatMap.mp hpart
    obtain ⟨steps, hfound⟩ := (hparts ty).exists
    obtain ⟨more, hmore⟩ := (eventually_succ (hparts part)).exists
    exact Option.some.inj (hmore.symm.trans (isComponent_of_components hfound part hmem more))
  rw [List.flatMap_congr fun part hpart => hcomponent part (hcollected.mem_of_mem_types hpart),
    List.flatMap_singleton', hcollected.collect_types] at hself
  exact ⟨_, hmerges tys, hself⟩

end

end Session

/-! ## Unions -/

/-- The members of a union or intersection. -/
def Ty.members : Ty → List Ty
  | .union members | .intersection members => members
  | _ => []

lemma Ty.isUnion_iff {ty : Ty} :
    ty.isUnion = true ↔ ty = .union ty.members ∨ ty = .intersection ty.members := by
  cases ty <;> simp [Ty.isUnion, Ty.members]

/-- The phrase that a union shows: that of one of the types that its members are merged into. -/
def shownPhrase (policy : UnionPolicy) (q : Ty → Phrasing) (parts : List Ty) : Phrase :=
  match shownMember policy (parts.filter fun part => (q part).erase.isConcrete) with
  | some part => (q part).phrase
  | none => [.code untypedText]

lemma shownPhrase_of_filter {policy : UnionPolicy} {q : Ty → Phrasing} {parts shown : List Ty}
    (h : parts.filter (fun part => (q part).erase.isConcrete) = shown) :
    shownPhrase policy q parts = match shownMember policy shown with
      | some part => (q part).phrase
      | none => [.code untypedText] := by
  rw [shownPhrase, h]

lemma shownMember_firstConcrete (part : Ty) (parts : List Ty) :
    shownMember .firstConcrete (part :: parts) = some part := by
  cases parts <;> rfl

/-- What a union is rendered as, from what its members are merged into. -/
def unionPhrasing (s : Session) (o : RenderOptions) (ty : Ty) (members : List Ty)
    (q : Ty → Phrasing) (parts : List Ty) : Phrasing :=
  let shown := shownPhrase (o.policy.getD s.policy) q parts
  if members.length > 1 then .annotated shown (ty.text s.table) o else .plain shown

lemma phrase_unionPhrasing (s : Session) (o : RenderOptions) (ty : Ty) (members : List Ty)
    (q : Ty → Phrasing) (parts : List Ty) : (unionPhrasing s o ty members q parts).phrase =
      shownPhrase (o.policy.getD s.policy) q parts := by
  unfold unionPhrasing
  split_ifs <;> rfl

/-- Unions of several members that show the same. -/
lemma unionPhrasing_sameUpTo {s : Session} {n : String → String} {o o' : RenderOptions}
    (ho : o.annotates = o'.annotates) {ty ty' : Ty}
    (hnote : n (ty.text s.table) = n (ty'.text s.table))
    {members members' : List Ty} (hlength : 1 < members.length ↔ 1 < members'.length)
    {q q' : Ty → Phrasing} {parts parts' : List Ty}
    (hshown : (shownPhrase (o.policy.getD s.policy) q parts).mapNotes n =
      (shownPhrase (o'.policy.getD s.policy) q' parts').mapNotes n) :
    (unionPhrasing s o ty members q parts).SameUpTo n
      (unionPhrasing s o' ty' members' q' parts') := by
  unfold unionPhrasing
  by_cases hmembers : 1 < members.length
  · rw [if_pos hmembers, if_pos (hlength.mp hmembers)]
    exact .annotated hshown ho hnote
  · rw [if_neg hmembers, if_neg (mt hlength.mpr hmembers)]
    exact .plain hshown

/-- **A union is rendered** as what its members are merged into is shown as. -/
lemma Session.Merges.gives_union {s : Session} {members : List Ty} {d : DistinctTypes}
    (h : s.Merges members d) {o : RenderOptions} {q : Ty → Phrasing}
    (hq : ∀ part ∈ d.types, ∀ᶠ depth in atTop,
      (phraseWithin depth part { o with hideComment := true, typeArguments := none }).Gives s.Like
        (q part)) (ty : Ty) :
    ∀ᶠ depth in atTop,
      (phraseUnion (renderWithin depth) (phraseWithin depth) depth ty members o).Gives s.Like
        (unionPhrasing s o ty members q d.types) := by
  filter_upwards [h, eventually_forall_mem hq] with depth hmerged hshown
  have hconcrete : ∀ part ∈ d.types, (do
      return (← Work.detached (renderWithin depth part
        { o with hideComment := true, typeArguments := none })).isConcrete : Work Bool).Gives s.Like
          (q part).erase.isConcrete := fun part hpart =>
    .bind ((Session.Like.fixes s).detached
      ((hshown part hpart).erases (phraseWithin_erases depth _ _))) (.pure _)
  have hend : ∀ shown : Phrase, (if members.length > 1 then do
      return Phrasing.annotated shown (ty.text (← Work.table)) o
    else return Phrasing.plain shown : Work Phrasing).Gives s.Like
      (if members.length > 1 then .annotated shown (ty.text s.table) o else .plain shown) := by
    intro shown
    split_ifs
    · exact Yields.table_bind fun t ht => .pure (by rw [ht.table])
    · exact .pure _
  refine .bind hmerged (.bind (.filterM hconcrete) (Yields.get_bind fun t ht => ?_))
  rw [ht.policy]
  dsimp only [unionPhrasing, shownPhrase]
  cases hshown' : shownMember (o.policy.getD s.policy)
      (d.types.filter fun part => (q part).erase.isConcrete) with
  | none => exact Gives.bind (.pure _) (hend _)
  | some part =>
      have hpart := (List.mem_filter.mp (mem_of_shownMember hshown')).1
      exact Gives.bind (hshown part hpart) (.bind (.pure _) (hend _))

/-- The same for the type itself. -/
lemma Session.Merges.gives_phrase {s : Session} {ty : Ty} (hform : ty.isUnion = true)
    {d : DistinctTypes} (h : s.Merges ty.members d) {o : RenderOptions} {q : Ty → Phrasing}
    (hq : ∀ part ∈ d.types, ∀ᶠ depth in atTop,
      (phraseWithin depth part { o with hideComment := true, typeArguments := none }).Gives s.Like
        (q part)) :
    ∀ᶠ depth in atTop,
      (phraseWithin depth ty o).Gives s.Like (unionPhrasing s o ty ty.members q d.types) := by
  have hunion := h.gives_union hq ty
  cases ty with
  | union members | intersection members => exact eventually_of_succ hunion
  | _ => cases hform

/-! ## During expansions -/

/-- **A type that leads to no alias in which expansions differ.** -/
def SymbolTable.Indifferent (table : SymbolTable) (first second : List Nat) (ty : Ty) : Prop :=
  ∀ part id args, ReflTransGen table.Unfolds part ty → part.reference? = some (id, args) →
    first.contains id = second.contains id

namespace SymbolTable.Indifferent

variable {table : SymbolTable} {first second : List Nat} {part ty : Ty}

lemma refl (expanding : List Nat) (ty : Ty) : table.Indifferent expanding expanding ty :=
  fun _ _ _ _ _ => rfl

lemma of_reached (h : table.Indifferent first second ty)
    (hpart : ReflTransGen table.Unfolds part ty) : table.Indifferent first second part :=
  fun inner id args hinner => h inner id args (hinner.trans hpart)

/-- One more alias that is being expanded on both sides makes no difference. -/
lemma push (h : table.Indifferent first second ty) (id : Nat) :
    table.Indifferent (id :: first) (id :: second) ty := fun inner other args hinner href => by
  rw [List.contains_cons, List.contains_cons, h inner other args hinner href]

lemma aliasBody? (h : table.Indifferent first second ty) :
    aliasBody? table first ty = aliasBody? table second ty := by
  ext ⟨id, body⟩
  rw [Interop.aliasBody?_eq_some, Interop.aliasBody?_eq_some]
  refine and_congr_right fun hty => and_congr_left fun _ => ?_
  have hcontains : first.contains id = second.contains id := by
    rcases hty with rfl | rfl <;> exact h _ id [] .refl rfl
  rw [← List.contains_iff_mem, ← List.contains_iff_mem, hcontains]

/-- It counts as the same. -/
lemma components (h : table.Indifferent first second ty) (steps : Nat) :
    components table first steps ty = Interop.components table second steps ty :=
  components_congr (P := table.Indifferent first second) (fun _ h => h.aliasBody?)
    (fun _ _ _ hbody h => h.of_reached (.single (.expand (expands_of_aliasBody? hbody))))
    (fun _ h _ hmember => h.of_reached (.single (.part (.alternative hmember))))
    (fun _ h _ hmember => h.of_reached (.single (.part (.conjunct hmember)))) steps h

end SymbolTable.Indifferent

/-- **A type that is rendered alike** during two lists of expansions. -/
def Ty.Alike (s : Session) (first second : List Nat) (ty : Ty) : Prop :=
  ∀ (scopes : List (List String)) (o : RenderOptions), o.Plain →
    (s.inside scopes first).Concurs (s.inside scopes second) (phraseWithin · ty o)
      (phraseWithin · ty o) (Phrasing.SameUpTo id)

section

variable {s : Session} {scopes : List (List String)} {first second : List Nat}

lemma Ty.Alike.renders {ty : Ty} (h : ty.Alike s first second) {o : RenderOptions} (ho : o.Plain)
    {r : Rendered} (hr : (s.inside scopes first).Renders ty o r) :
    (s.inside scopes second).Renders ty o r := by
  obtain ⟨p, p', hp, hp', hsame⟩ := h scopes o ho
  obtain rfl := hsame.eq
  have hleft : (s.inside scopes first).Renders ty o p.erase :=
    hp.mono fun depth h => h.erases (phraseWithin_erases depth _ _)
  rw [hr.unique hleft]
  exact hp'.mono fun depth h => h.erases (phraseWithin_erases depth _ _)

lemma phraseFunction_alike {sig : Signature}
    (hparts : ∀ part : Ty, part.Part (.function sig) → part.Alike s first second)
    {o : RenderOptions} (ho : o.Plain) : (s.inside scopes first).Concurs (s.inside scopes second)
      (fun depth => phraseFunction (phraseWithin depth) sig o)
      (fun depth => phraseFunction (phraseWithin depth) sig o) (Phrasing.SameUpTo id) :=
  phraseFunction_concurs rfl rfl rfl rfl
    (phraseSignature_concurs (f := id) rfl (List.map_id _).symm
      (fun p hp => ⟨rfl, hparts p.type (.param sig hp) _ _ ho.nested⟩)
      (hparts sig.result (.result sig) _ _ ho.nested))

/-- A union whose members are merged into the same types. -/
lemma phraseUnion_alike {tys : List Ty} {d : DistinctTypes}
    (hd : (s.inside scopes first).Merges tys d) (hd' : (s.inside scopes second).Merges tys d)
    (hparts : ∀ part ∈ d.types, part.Alike s first second) (ty : Ty) {o : RenderOptions}
    (ho : o.Plain) : (s.inside scopes first).Concurs (s.inside scopes second)
      (fun depth => phraseUnion (renderWithin depth) (phraseWithin depth) depth ty tys o)
      (fun depth => phraseUnion (renderWithin depth) (phraseWithin depth) depth ty tys o)
      (Phrasing.SameUpTo id) := by
  have hshown : ∀ part, ∃ p, part ∈ d.types →
      (∀ᶠ depth in atTop, (phraseWithin depth part
        { o with hideComment := true, typeArguments := none }).Gives
          (s.inside scopes first).Like p) ∧
      ∀ᶠ depth in atTop, (phraseWithin depth part
        { o with hideComment := true, typeArguments := none }).Gives
          (s.inside scopes second).Like p := by
    intro part
    by_cases hmem : part ∈ d.types
    · obtain ⟨p, p', hp, hp', hsame⟩ := hparts part hmem scopes
        { o with hideComment := true, typeArguments := none } ⟨rfl, ho.bindings⟩
      exact ⟨p, fun _ => ⟨hp, hsame.eq ▸ hp'⟩⟩
    · exact ⟨.plain [], fun h => absurd h hmem⟩
  choose q hq using hshown
  exact ⟨_, _, hd.gives_union (fun part hmem => (hq part hmem).1) ty,
    hd'.gives_union (fun part hmem => (hq part hmem).2) ty, .refl _⟩

variable (hacyclic : ∀ id, ¬ TransGen s.table.Uses id id) (hnamed : s.Named)
  (hbatch : s.log.mode = .batch)
include hacyclic hnamed hbatch

/-- What is rendered alike is merged alike. -/
lemma merges_alike {tys : List Ty} (htys : ∀ ty ∈ tys, s.table.Indifferent first second ty)
    (hsame : ∀ ty ∈ tys, ∀ part, ReflTransGen s.table.Unfolds part ty →
      part.Alike s first second) (scopes : List (List String)) :
    ∃ d, (s.inside scopes first).Merges tys d ∧ (s.inside scopes second).Merges tys d ∧
      (s.inside scopes first).Merges d.types d ∧ (s.inside scopes second).Merges d.types d ∧
      ∀ part ∈ d.types, part.Alike s first second := by
  choose rendered hrendered using fun ty =>
    (s.inside scopes first).exists_renders hacyclic (hnamed.inside scopes first) hbatch ty .key
  choose parts hparts using components_eventually (SymbolTable.unfolds_wellFounded hacyclic) first
  have halike : ∀ part ∈ tys.flatMap parts, part.Alike s first second := by
    intro part hpart
    obtain ⟨ty, hty, hmem⟩ := List.mem_flatMap.mp hpart
    obtain ⟨steps, hfound⟩ := (hparts ty).exists
    exact hsame ty hty part (unfolds_components hfound part hmem)
  have hfirst : (s.inside scopes first).Merges tys _ :=
    Session.merges_collect parts (fun ty _ => hparts ty) fun part _ => hrendered part
  have hsecond : (s.inside scopes second).Merges tys _ :=
    Session.merges_collect parts (fun ty hty => (hparts ty).mono fun steps hfound =>
      ((htys ty hty).components steps).symm.trans hfound)
      fun part hpart => (halike part hpart).renders .key (hrendered part)
  obtain ⟨d, hd, hself⟩ := (s.inside scopes first).exists_merges hacyclic
    (hnamed.inside scopes first) hbatch tys
  obtain ⟨d', hd', hself'⟩ := (s.inside scopes second).exists_merges hacyclic
    (hnamed.inside scopes second) hbatch tys
  obtain rfl := hd.unique hfirst
  obtain rfl := hd'.unique hsecond
  exact ⟨_, hd, hd', hself, hself', fun part hpart => halike part
    ((DistinctTypes.Collected.ofList _ (tys.flatMap parts)).mem_of_mem_types hpart)⟩

/-- The type that stands for merged types. -/
lemma representative_alike {tys : List Ty}
    (htys : ∀ ty ∈ tys, s.table.Indifferent first second ty)
    (hsame : ∀ ty ∈ tys, ∀ part, ReflTransGen s.table.Unfolds part ty →
      part.Alike s first second) (scopes : List (List String)) :
    (s.inside scopes first).Concurs (s.inside scopes second)
      (fun depth => DistinctTypes.representative (renderWithin depth) depth tys)
      (fun depth => DistinctTypes.representative (renderWithin depth) depth tys)
      fun part part' => ∀ o : RenderOptions, o.Plain →
        (s.inside scopes first).Concurs (s.inside scopes second) (phraseWithin · part o)
          (phraseWithin · part' o) (Phrasing.SameUpTo id) := by
  obtain ⟨d, hd, hd', hself, hself', hparts⟩ :=
    merges_alike hacyclic hnamed hbatch htys hsame scopes
  refine .map (P := fun e e' => e = d ∧ e' = d) ⟨d, d, hd, hd', rfl, rfl⟩ ?_
  rintro e e' ⟨rfl, rfl⟩ o ho
  unfold DistinctTypes.representative?
  rcases hall : DistinctTypes.types _ with _ | ⟨part, _ | ⟨next, rest⟩⟩
  · exact .of_succ (.pure (.refl _))
  · exact hparts part (by rw [hall]; exact List.mem_cons_self) scopes o ho
  · rw [hall] at hself hself'
    exact .of_succ (phraseUnion_alike hself hself' hparts _ ho)

/-- **A type is rendered alike during expansions** that differ in no alias that it leads to. -/
theorem rendered_elsewhere (ty : Ty) : ∀ {first second : List Nat},
    s.table.Indifferent first second ty → ty.Alike s first second := by
  induction ty using (SymbolTable.unfolds_wellFounded hacyclic).transGen.induction with
  | _ ty ih =>
      intro first second hty scopes o ho
      have hpassed : ∀ inner, TransGen s.table.Unfolds inner ty → inner.Alike s first second :=
        fun inner hinner => ih inner hinner (hty.of_reached hinner.to_reflTransGen)
      have hpart : ∀ part : Ty, part.Part ty → part.Alike s first second :=
        fun part hpart => hpassed part (.single (.part hpart))
      have hmerged : ∀ tys : List Ty, (∀ inner ∈ tys, inner.Part ty) →
          (∀ inner ∈ tys, s.table.Indifferent first second inner) ∧
            ∀ inner ∈ tys, ∀ part, ReflTransGen s.table.Unfolds part inner →
              part.Alike s first second := fun tys htys =>
        ⟨fun inner hinner => hty.of_reached (.single (.part (htys inner hinner))),
          fun inner hinner part hreach => hpassed part (.tail' hreach (.part (htys inner hinner)))⟩
      have hsymbol : ∀ target args, ty.reference? = some (target, args) →
          (s.inside scopes first).Concurs (s.inside scopes second)
            (fun depth => phraseSymbol (phraseWithin depth) target args o)
            (fun depth => phraseSymbol (phraseWithin depth) target args o)
            (Phrasing.SameUpTo id) := by
        intro target args href
        have h := phraseSymbol_concurs (n := id) (o := o) (f := id) rfl hnamed hbatch
          (hty ty target args .refl href) (fun _ _ _ => by rw [List.map_id])
          (fun arg harg => hpart arg (Ty.part_of_reference? href harg) scopes _ ho.argument)
          fun symbol definition hget hkind haliased => by
            have hbody := TransGen.single (r := s.table.Unfolds)
              (.expand ⟨args, symbol, definition, href, hget, hkind, haliased, rfl⟩)
            rw [List.map_id]
            exact ih _ hbody ((hty.of_reached hbody.to_reflTransGen).push target) scopes _
              ⟨rfl, ho.bindings⟩
        rwa [List.map_id] at h
      have hunion : ∀ tys : List Ty, (∀ inner ∈ tys, inner.Part ty) →
          (s.inside scopes first).Concurs (s.inside scopes second)
            (fun depth => phraseUnion (renderWithin depth) (phraseWithin depth) depth ty tys o)
            (fun depth => phraseUnion (renderWithin depth) (phraseWithin depth) depth ty tys o)
            (Phrasing.SameUpTo id) := by
        intro tys htys
        obtain ⟨d, hd, hd', -, -, hparts⟩ := merges_alike hacyclic hnamed hbatch
          (hmerged tys htys).1 (hmerged tys htys).2 scopes
        exact phraseUnion_alike hd hd' hparts ty ho
      refine .of_succ ?_
      cases ty with
      | primitive kind => exact .pure (.refl _)
      | literal kind text => exact .pure (.refl _)
      | raw text => exact .pure (.refl _)
      | nominal target args => exact hsymbol target args rfl
      | «alias» target =>
          have h := hsymbol target [] rfl
          simp only [phraseWithin, ho.typeArguments]
          exact h
      | function sig => exact phraseFunction_alike hpart ho
      | array element =>
          obtain ⟨hsame, halike⟩ := hmerged [element] (List.forall_mem_singleton.mpr .element)
          refine .bind (representative_alike hacyclic hnamed hbatch hsame halike scopes)
            fun part part' hpart => (hpart _ ho.argument).map fun p p' h => .plain ?_
          simp [h.withComment]
      | tuple elements =>
          obtain ⟨hsame, halike⟩ := hmerged elements fun _ => .component
          refine .bind (representative_alike hacyclic hnamed hbatch hsame halike scopes)
            fun part part' hpart => .bind (hpart { o.argument with hideComment := true }
              ⟨rfl, ho.bindings⟩) fun p p' h => .table_bind (.pure (.annotated ?_ rfl rfl))
          simp [h.withComment]
      | shape members =>
          cases hcall : Member.onlyCall? members with
          | none =>
              simp only [phraseWithin, phraseShape_of_none hcall]
              exact .table_bind (.pure (.refl _))
          | some sig =>
              obtain ⟨name, isStatic, span, rfl⟩ := Member.onlyCall?_eq_some.mp hcall
              have hreach : s.table.Unfolds (.function sig)
                (.shape [⟨name, .call sig, isStatic, span⟩]) := .part .call
              exact phraseFunction_alike (fun part hinner =>
                hpassed part (.head (.part hinner) (.single hreach))) ho
      | param name =>
          simp only [phraseWithin, ho.bindings, Option.bind_none]
          refine .get_bind (fun depth s hs => by rw [hs.inScope])
            (fun depth s hs => by rw [hs.inScope]) ?_
          rw [show (s.inside scopes second).inScope name = (s.inside scopes first).inScope name
            from rfl]
          split_ifs
          · exact .pure (.refl _)
          · exact .pure (.refl _)
      | union members => exact hunion members fun _ => .alternative
      | intersection members => exact hunion members fun _ => .conjunct

/-! ## What types come to -/

/-- Everything is rendered as some phrase. -/
lemma exists_phrase (ty : Ty) {o : RenderOptions} (ho : o.Plain) :
    ∃ p, ∀ᶠ depth in atTop, (phraseWithin depth ty o).Gives s.Like p := by
  obtain ⟨p, -, hp, -⟩ :=
    rendered_elsewhere hacyclic hnamed hbatch ty (.refl s.expanding ty) s.scopes o ho
  exact ⟨p, hp⟩

/-- An alias is rendered as what it stands for. -/
lemma rendered_aliasBody {ty body : Ty} {target : Nat}
    (hbody : aliasBody? s.table s.expanding ty = some (target, body)) {o : RenderOptions}
    (ho : o.Plain) :
    s.Concurs s (phraseWithin · ty o) (phraseWithin · body o) (Phrasing.SameUpTo id) := by
  obtain ⟨hty, hnot, symbol, hget, hkind, hparams, haliased⟩ := aliasBody?_eq_some.mp hbody
  -- the definition does not lead back to the alias
  have hindifferent : s.table.Indifferent (target :: s.expanding) s.expanding body := by
    intro part other args hreach href
    have hne : other ≠ target := by
      rintro rfl
      have hback : s.table.Unfolds body part :=
        .expand ⟨args, symbol, body, href, hget, hkind, haliased, by simp [hparams]⟩
      exact (SymbolTable.unfolds_wellFounded hacyclic).transGen.irrefl.irrefl body
        (.head' hback hreach)
    simp [hne]
  obtain ⟨p, p', hp, hp', hsame⟩ :=
    rendered_elsewhere hacyclic hnamed hbatch body hindifferent s.scopes o ho
  obtain rfl := hsame.eq
  refine ⟨p, p, eventually_of_succ ?_, hp', .refl p⟩
  have hplain : { o with typeArguments := none } = o := by
    rw [← ho.typeArguments]
  filter_upwards [hp] with depth hdepth
  have hinner : (phraseWithin depth body o).Gives (s.pushAlias target).Like p := hdepth
  have hrun : (phraseSymbol (phraseWithin depth) target [] o).Gives s.Like p := by
    refine Yields.table_bind fun t ht => ?_
    rw [ht.table, hget]
    simp only [hkind, phraseAlias, haliased, hparams, List.isEmpty_nil, if_true, hplain]
    refine Yields.get_bind fun t ht => ?_
    rw [ht.expanding, if_neg (by simpa using hnot)]
    exact hinner.expanding
  rcases hty with rfl | rfl
  · simpa only [phraseWithin, ho.typeArguments, Option.getD_none] using hrun
  · exact hrun

/-- **A type is rendered as what it is looked through to.** -/
lemma rendered_followAliases (ty : Ty) {o : RenderOptions} (ho : o.Plain) :
    s.Concurs s (phraseWithin · ty o) (phraseWithin · (followAliases s.table s.expanding ty) o)
      (Phrasing.SameUpTo id) :=
  (follows_followAliases s.table s.expanding ty).keeps
    (P := fun last => s.Concurs s (phraseWithin · ty o) (phraseWithin · last o)
      (Phrasing.SameUpTo id))
    (fun _ _ _ hbody h => h.trans (rendered_aliasBody hacyclic hnamed hbatch hbody ho)
      fun _ _ _ => Phrasing.SameUpTo.trans)
    (rendered_elsewhere hacyclic hnamed hbatch ty (.refl s.expanding ty) s.scopes o ho)

end

/-- **What a type comes to** when it is merged: the type that it is looked through to, or several
types that several members are merged into. -/
def Session.ComesTo (s : Session) (ty : Ty) (group : List Ty) : Prop :=
  (∃ d, s.Merges [ty] d ∧ d.types = group) ∧
    ((followAliases s.table s.expanding ty).isUnion = true →
      1 < (followAliases s.table s.expanding ty).members.length ∧ 1 < group.length)

/-- The type that stands for a group of types. -/
def Ty.ofGroup (group : List Ty) : Ty :=
  (Ty.ofUnion group).getD .any

lemma Ty.ofGroup_of_lt : ∀ {group : List Ty}, 1 < group.length → Ty.ofGroup group = .union group
  | _ :: _ :: _, _ => rfl

section

variable {s : Session} (hacyclic : ∀ id, ¬ TransGen s.table.Uses id id) (hnamed : s.Named)
  (hbatch : s.log.mode = .batch)
include hacyclic hnamed hbatch

/-- What a type that is looked through to no union is merged into. -/
lemma merges_followAliases {ty : Ty}
    (hform : (followAliases s.table s.expanding ty).isUnion = false) :
    ∃ d, s.Merges [ty] d ∧ d.types = [followAliases s.table s.expanding ty] := by
  choose rendered hrendered using fun ty => s.exists_renders hacyclic hnamed hbatch ty .key
  refine ⟨_, Session.merges_collect (fun _ => [followAliases s.table s.expanding ty])
    (fun other hother => ?_) fun part _ => hrendered part, rfl⟩
  obtain rfl := List.mem_singleton.mp hother
  exact eventually_of_succ (.of_forall fun steps => components_of_isUnion hform)

/-- A union is merged into what its members are merged into. -/
lemma merges_members {ty : Ty} {members : List Ty}
    (hform : followAliases s.table s.expanding ty = .union members ∨
      followAliases s.table s.expanding ty = .intersection members) :
    ∃ d, s.Merges [ty] d ∧ s.Merges members d := by
  choose rendered hrendered using fun ty => s.exists_renders hacyclic hnamed hbatch ty .key
  choose parts hparts using
    components_eventually (SymbolTable.unfolds_wellFounded hacyclic) s.expanding
  have hflat : ∀ᶠ steps in atTop,
      components s.table s.expanding steps ty = some (members.flatMap parts) := by
    refine eventually_of_succ ?_
    filter_upwards [eventually_forall_mem fun member (_ : member ∈ members) => hparts member]
      with steps hfound
    rw [List.flatMap_def]
    rcases hform with hform | hform <;>
      simp only [components, hform, mapM_eq_some hfound, Option.map_some]
  have hmerges : s.Merges [ty] _ :=
    Session.merges_collect (fun _ => members.flatMap parts) (fun other hother => by
      obtain rfl := List.mem_singleton.mp hother
      exact hflat) fun part _ => hrendered part
  refine ⟨_, by simpa using hmerges, Session.merges_collect parts (fun member _ => hparts member)
    fun part _ => hrendered part⟩

/-- What types are merged into comes to itself. -/
lemma Session.Merges.comesTo {tys : List Ty} {d : DistinctTypes} (h : s.Merges tys d) {part : Ty}
    (hpart : part ∈ d.types) : s.ComesTo part [part] := by
  obtain ⟨ty, -, steps, list, hfound, hmem⟩ := h.mem_components hacyclic hnamed hbatch hpart
  obtain ⟨hself, hform⟩ := followAliases_of_components hfound part hmem
  rw [← hself] at hform
  obtain ⟨e, he, htypes⟩ := merges_followAliases hacyclic hnamed hbatch hform
  rw [hself] at htypes
  exact ⟨⟨e, he, htypes⟩, fun hunion => by rw [hform] at hunion; cases hunion⟩

lemma Session.ComesTo.ne_nil {ty : Ty} {group : List Ty} (h : s.ComesTo ty group) : group ≠ [] := by
  obtain ⟨⟨d, hd, rfl⟩, hseveral⟩ := h
  cases hform : (followAliases s.table s.expanding ty).isUnion with
  | false =>
      obtain ⟨d', hd', htypes⟩ := merges_followAliases hacyclic hnamed hbatch hform
      rw [hd.unique hd', htypes]
      exact List.cons_ne_nil _ _
  | true =>
      intro hnil
      have hlong := (hseveral hform).2
      rw [hnil] at hlong
      cases hlong

/-- What a type comes to is merged into itself. -/
lemma Session.ComesTo.merges {ty : Ty} {group : List Ty} (h : s.ComesTo ty group) :
    ∃ d, s.Merges group d ∧ d.types = group := by
  obtain ⟨⟨d, hd, rfl⟩, -⟩ := h
  obtain ⟨d', hd', hself⟩ := s.exists_merges hacyclic hnamed hbatch [ty]
  obtain rfl := hd.unique hd'
  exact ⟨d, hself, rfl⟩

/-- **A type is rendered as what it comes to** when it is merged, apart from what its note says. -/
theorem rendered_comesTo {ty : Ty} {group : List Ty} (h : s.ComesTo ty group) {o : RenderOptions}
    (ho : o.Plain) : s.Concurs s (phraseWithin · ty o) (phraseWithin · (Ty.ofGroup group) o)
      (Phrasing.SameUpTo fun _ => "") := by
  obtain ⟨e, hself, hsame⟩ := h.merges hacyclic hnamed hbatch
  obtain ⟨⟨d, hd, rfl⟩, hseveral⟩ := h
  have hfollow := rendered_followAliases hacyclic hnamed hbatch ty ho
  cases hform : (followAliases s.table s.expanding ty).isUnion with
  | false =>
      obtain ⟨d', hd', htypes⟩ := merges_followAliases hacyclic hnamed hbatch hform
      rw [hd.unique hd', htypes]
      exact hfollow.imp fun p p' hsame => hsame.eq ▸ .refl p
  | true =>
      obtain ⟨hmembers, hgroup⟩ := hseveral hform
      obtain ⟨d', hd', hmerged⟩ :=
        merges_members hacyclic hnamed hbatch (Ty.isUnion_iff.mp hform)
      obtain rfl := hd.unique hd'
      choose q hq using fun part => exists_phrase hacyclic hnamed hbatch part
        (o := { o with hideComment := true, typeArguments := none }) ⟨rfl, ho.bindings⟩
      have hleft := hmerged.gives_phrase (o := o) hform fun part _ => hq part
      have hunion : s.Merges (Ty.union d.types).members e := hself
      have hright := hunion.gives_phrase (o := o) rfl fun part _ => hq part
      rw [Ty.ofGroup_of_lt hgroup]
      refine hfollow.trans ⟨_, _, hleft, hright, ?_⟩ fun p p' p'' hsame h => hsame.eq ▸ h
      rw [hsame]
      refine unionPhrasing_sameUpTo ?_ ?_ (iff_of_true hmembers hgroup) ?_ <;> rfl

end

/-! ## Groups -/

/-- **A rendered type that shows what a group of types shows**: one of them, or nothing. -/
def Phrasing.ShowsAs (n : String → String) (policy : UnionPolicy) (q : Ty → Phrasing) (p : Phrasing)
    (group : List Ty) : Prop :=
  match shownMember policy (group.filter fun part => (q part).erase.isConcrete) with
  | some part => p.erase.isConcrete = true ∧ p.phrase.mapNotes n = (q part).phrase.mapNotes n
  | none => p.erase.isConcrete = false

namespace Phrasing.ShowsAs

variable {n : String → String} {policy : UnionPolicy} {q : Ty → Phrasing} {p : Phrasing}

lemma iff_of_filter {group shown : List Ty}
    (hfilter : (group.filter fun part => (q part).erase.isConcrete) = shown) :
    p.ShowsAs n policy q group ↔ match shownMember policy shown with
      | some part => p.erase.isConcrete = true ∧ p.phrase.mapNotes n = (q part).phrase.mapNotes n
      | none => p.erase.isConcrete = false := by
  rw [ShowsAs, hfilter]

/-- A group of one. -/
lemma single {part : Ty} (h : p.phrase.mapNotes n = (q part).phrase.mapNotes n) :
    p.ShowsAs n policy q [part] := by
  have hconcrete := SameUpTo.isConcrete_of_phrase h
  unfold ShowsAs
  cases hpart : (q part).erase.isConcrete with
  | true =>
      simp only [List.filter_cons, hpart, if_true, List.filter_nil, shownMember]
      exact ⟨hconcrete.trans hpart, h⟩
  | false =>
      simp only [List.filter_cons, hpart, if_neg Bool.false_ne_true, List.filter_nil, shownMember]
      exact hconcrete.trans hpart

/-- A group that is rendered as a union. -/
lemma several {group : List Ty}
    (h : p.phrase.mapNotes n = (shownPhrase policy q group).mapNotes n) :
    p.ShowsAs n policy q group := by
  unfold shownPhrase at h
  unfold ShowsAs
  cases hshown : shownMember policy (group.filter fun part => (q part).erase.isConcrete) with
  | none =>
      rw [hshown] at h
      have huntyped : p.phrase.mapNotes n =
        (Phrasing.plain [.code untypedText]).phrase.mapNotes n := h
      exact SameUpTo.isConcrete_of_phrase huntyped
  | some part =>
      rw [hshown] at h
      refine ⟨?_, h⟩
      rw [SameUpTo.isConcrete_of_phrase h]
      exact (List.mem_filter.mp (mem_of_shownMember hshown)).2

end Phrasing.ShowsAs

section

variable {n : String → String} {policy : UnionPolicy} {q q' : Ty → Phrasing} {parts : List Ty}
  {groups : List (List Ty)}

/-- Types that show what groups show, in which there is nothing to show. -/
lemma filter_eq_nil_of_groups
    (h : List.Forall₂ (fun part group => (q part).ShowsAs n policy q' group) parts groups)
    (hnone : groups.flatten.filter (fun part => (q' part).erase.isConcrete) = []) :
    parts.filter (fun part => (q part).erase.isConcrete) = [] := by
  induction h with
  | nil => rfl
  | @cons part group parts groups hpart hrest ih =>
      rw [List.flatten_cons, List.filter_append, List.append_eq_nil_iff] at hnone
      have hpart : (q part).erase.isConcrete = false :=
        (Phrasing.ShowsAs.iff_of_filter hnone.1).mp hpart
      rw [List.filter_cons_of_neg (by simp [hpart]), ih hnone.2]

/-- Groups of at most one type have as many to show as the types that show what they show. -/
lemma groups_eq_nil_of_filter
    (h : List.Forall₂ (fun part group => (q part).ShowsAs n policy q' group) parts groups)
    (hsingle : ∀ group ∈ groups, group.length ≤ 1)
    (hnone : parts.filter (fun part => (q part).erase.isConcrete) = []) :
    groups.flatten.filter (fun part => (q' part).erase.isConcrete) = [] := by
  induction h with
  | nil => rfl
  | @cons part group parts groups hpart hrest ih =>
      obtain ⟨hgroup, hgroups⟩ := List.forall_mem_cons.mp hsingle
      obtain ⟨hpart', hparts⟩ := List.forall_mem_cons.mp (List.filter_eq_nil_iff.mp hnone)
      rw [List.flatten_cons, List.filter_append,
        ih hgroups (List.filter_eq_nil_iff.mpr hparts), List.append_nil]
      have hlength := (List.length_filter_le (fun part => (q' part).erase.isConcrete) group).trans
        hgroup
      rcases hfilter : group.filter fun part => (q' part).erase.isConcrete with
        _ | ⟨only, _ | ⟨second, rest⟩⟩
      · rfl
      · exact absurd ((Phrasing.ShowsAs.iff_of_filter hfilter).mp hpart).1 hpart'
      · simp [hfilter] at hlength

/-- **Groups one after another show what the types show** that show what each group shows.  Where
several types show nothing, no group of several has another one beside it that shows something. -/
lemma shownPhrase_flatten
    (h : List.Forall₂ (fun part group => (q part).ShowsAs n policy q' group) parts groups)
    (hapart : policy = .untyped → groups.Pairwise fun group other =>
      (1 < group.length → ∀ part ∈ other, (q' part).erase.isConcrete = false) ∧
        (1 < other.length → ∀ part ∈ group, (q' part).erase.isConcrete = false)) :
    (shownPhrase policy q parts).mapNotes n =
      (shownPhrase policy q' groups.flatten).mapNotes n := by
  induction h with
  | nil => rfl
  | @cons part group parts groups hpart hrest ih =>
      have ih := ih fun hpolicy => (List.pairwise_cons.mp (hapart hpolicy)).2
      have hright : ∀ {shown : List Ty},
          (group.filter fun part => (q' part).erase.isConcrete) = shown →
          (group ++ groups.flatten).filter (fun part => (q' part).erase.isConcrete) =
            shown ++ groups.flatten.filter fun part => (q' part).erase.isConcrete :=
        fun hfilter => by rw [List.filter_append, hfilter]
      rw [List.flatten_cons]
      rcases hfilter : group.filter fun part => (q' part).erase.isConcrete with
        _ | ⟨only, more⟩ <;>
        have hpart := (Phrasing.ShowsAs.iff_of_filter hfilter).mp hpart
      case cons.nil =>
        have hpart : (q part).erase.isConcrete = false := hpart
        have hleft : (part :: parts).filter (fun part => (q part).erase.isConcrete) =
          parts.filter fun part => (q part).erase.isConcrete :=
            List.filter_cons_of_neg (by simp [hpart])
        rw [shownPhrase_of_filter hleft, shownPhrase_of_filter (hright hfilter)]
        exact ih
      case cons.cons =>
        have honly : only ∈ group ∧ (q' only).erase.isConcrete = true :=
          List.mem_filter.mp (hfilter ▸ List.mem_cons_self)
        rw [shownPhrase_of_filter (hright hfilter), List.cons_append]
        cases policy with
        | firstConcrete =>
            rw [shownMember_firstConcrete] at hpart ⊢
            have hleft : (part :: parts).filter (fun part => (q part).erase.isConcrete) =
              part :: parts.filter fun part => (q part).erase.isConcrete :=
                List.filter_cons_of_pos hpart.1
            rw [shownPhrase_of_filter hleft, shownMember_firstConcrete]
            exact hpart.2
        | untyped =>
            obtain ⟨hbeside, -⟩ := List.pairwise_cons.mp (hapart rfl)
            rcases more with _ | ⟨second, more⟩
            · -- no group beside is of several: something is beside on both sides or on neither
              have hsingle : ∀ other ∈ groups, other.length ≤ 1 := fun other hother => by
                by_contra hlong
                rw [(hbeside other hother).2 (by omega) only honly.1] at honly
                cases honly.2
              have hleft : (part :: parts).filter (fun part => (q part).erase.isConcrete) =
                part :: parts.filter fun part => (q part).erase.isConcrete :=
                  List.filter_cons_of_pos hpart.1
              rw [shownPhrase_of_filter hleft, List.nil_append]
              rcases hparts : parts.filter fun part => (q part).erase.isConcrete with
                _ | ⟨next, rest⟩
              · rw [groups_eq_nil_of_filter hrest hsingle hparts]
                exact hpart.2
              · rcases hgroups : groups.flatten.filter fun part => (q' part).erase.isConcrete with
                  _ | ⟨next', rest'⟩
                · rw [filter_eq_nil_of_groups hrest hgroups] at hparts
                  cases hparts
                · rfl
            · -- beside a group of several there is nothing
              have hpart : (q part).erase.isConcrete = false := hpart
              have hlong : 1 < group.length := by
                have hlength := List.length_filter_le (fun part => (q' part).erase.isConcrete) group
                rw [hfilter] at hlength
                simp only [List.length_cons] at hlength
                omega
              have hnone : groups.flatten.filter (fun part => (q' part).erase.isConcrete) = [] := by
                refine List.filter_eq_nil_iff.mpr fun inner hinner => ?_
                obtain ⟨other, hother, hmem⟩ := List.mem_flatten.mp hinner
                simp [(hbeside other hother).1 hlong inner hmem]
              have hleft : (part :: parts).filter (fun part => (q part).erase.isConcrete) = [] := by
                rw [← filter_eq_nil_of_groups hrest hnone]
                exact List.filter_cons_of_neg (by simp [hpart])
              rw [shownPhrase_of_filter hleft]
              rfl

end

end Interop
