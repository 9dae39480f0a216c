import Interop.Proofs.MergedTypes
import Interop.Proofs.ReportMode
import Interop.Proofs.SubstitutionLaws

/-!
# Two ways to instantiate type parameters

Type parameters can be replaced by what they stand for before a type is rendered, or be bound while
it is rendered.  The first leaves alone what a nested signature declares; the second looks up every
name that it meets, and merges types before it looks their parameters up.  So the two come to the
same where the bindings fit what is rendered on the way: no signature declares a bound name that it
uses, no alias mentions one that is not its own, and types are merged alike with the parameters and
with what these stand for.

* `Bindings.MergesAlike` — merging does not tell type parameters from what they stand for; that may
  be a union, and several of the merged types then.
* `Bindings.Fits`, `Bindings.Passes`, `Bindings.FitsAll` — what bindings must leave alone in a type,
  and in all that is rendered on the way.
* `agrees_of_passed` — one type, form by form; `agrees_substitute` — all types, by induction on what
  they unfold to.
* **`instantiations_agree`** — the two ways agree where the bindings fit.
* `instantiations_disagree` — a signature with a type parameter of its own that is bound outside.
-/

namespace Interop

open Filter Relation Work

/-! ## What is asked of types -/

/-- A type that is rendered as nothing that could be shown. -/
def Session.Vague (s : Session) (ty : Ty) : Prop :=
  ∀ o : RenderOptions, o.Plain → ∀ r, s.Renders ty o r → r.isConcrete = false

/-- **Groups of types that can be put together.**  Where several types that could be shown show
nothing, no group of several has another one beside it that could show something. -/
def Session.KeepsApart (s : Session) (policy : UnionPolicy) (groups : List (List Ty)) : Prop :=
  policy = .untyped → groups.Pairwise fun group other =>
    (1 < group.length → ∀ ty ∈ other, s.Vague ty) ∧ (1 < other.length → ∀ ty ∈ group, s.Vague ty)

namespace Bindings

variable {b : Bindings} {s : Session} {policy : UnionPolicy}

lemma substitute_aliasBindings (b : Bindings) (params : List String) (args : List Ty) :
    (aliasBindings params args).substitute b =
      aliasBindings params (args.map (Ty.substitute b)) := by
  simp only [Bindings.substitute, aliasBindings, List.map_reverse, List.map_map]
  refine congrArg List.reverse (List.map_congr_left fun entry _ => ?_)
  obtain ⟨name, i⟩ := entry
  simp only [Function.comp_apply, List.getElem?_map]
  cases args[i]? <;> rfl

/-- Parameters of a definition that are not replaced by what they stand for are not bound. -/
lemma Apart.unbound {definition : Ty} (h : b.Apart [] definition.occurrences) :
    ∀ name ∈ definition.freeParams, b.lookup name = none := by
  intro name hname
  rw [Ty.freeParams_eq] at hname
  obtain ⟨o, ho, hfree, rfl⟩ := mem_freeNames.mp hname
  exact h o ho hfree

/-- **What an alias stands for**, with bound type parameters replaced. -/
lemma Apart.expansion {symbol : Symbol} {args : List Ty} {definition : Ty}
    (h : b.Apart (aliasBindings symbol.typeParams args) definition.occurrences) :
    (if symbol.typeParams.isEmpty then definition
      else definition.substitute (aliasBindings symbol.typeParams args)).substitute b =
    if symbol.typeParams.isEmpty then definition
    else definition.substitute (aliasBindings symbol.typeParams (args.map (Ty.substitute b))) := by
  split_ifs with hparams
  · rw [List.isEmpty_iff.mp hparams] at h
    exact Ty.substitute_of_unbound h.unbound
  · rw [Ty.substitute_substitute definition h, substitute_aliasBindings]

/-- A type that mentions no bound type parameter. -/
def Spares (b : Bindings) (ty : Ty) : Prop :=
  ∀ name ∈ ty.freeParams, b.lookup name = none

/-- Replacing in an alias's definition leaves other parameters alone, and captures nothing. -/
def FitsAlias (b : Bindings) (table : SymbolTable) (id : Nat) (args : List Ty) : Prop :=
  ∀ symbol definition, table.get? id = some symbol → symbol.kind = .alias →
    symbol.aliased = some definition →
      b.Apart (aliasBindings symbol.typeParams args) definition.occurrences

/-- **Merging does not tell type parameters from what they stand for.**  Types with bound type
parameters replaced are merged into what the types themselves are merged into, with the parameters
replaced in it: one after another, into what each comes to. -/
def MergesAlike (b : Bindings) (s : Session) (policy : UnionPolicy) (tys : List Ty) : Prop :=
  ∀ d d', s.Merges tys d → s.Merges (tys.map (Ty.substitute b)) d' →
    ∃ groups, d'.types = groups.flatten ∧ s.KeepsApart policy groups ∧
      List.Forall₂ (fun part group => s.ComesTo (part.substitute b) group) d.types groups

/-- Merged types that mention no bound type parameter, or that are merged alike. -/
def FitsMerging (b : Bindings) (s : Session) (policy : UnionPolicy) (tys : List Ty) : Prop :=
  (∀ ty ∈ tys, b.Spares ty) ∨ b.MergesAlike s policy tys

/-- **What bindings must leave alone in a type**, where several types that could be shown are shown
as the policy says. -/
def Fits (b : Bindings) (s : Session) (policy : UnionPolicy) : Ty → Prop
  | .nominal id args => b.FitsAlias s.table id args ∧
      ∀ symbol name bound, s.table.get? id = some symbol → symbol.kind ≠ .alias →
        args = [.param name] → b.lookup name = some bound → bound.isAbsent = false
  | .alias id => b.FitsAlias s.table id []
  | .function sig => ∀ name ∈ sig.typeParams,
      (∃ p ∈ sig.params, name ∈ p.type.freeParams) ∨ name ∈ sig.result.freeParams →
        b.lookup name = none
  | .array element => b.FitsMerging s policy [element]
  | .tuple tys | .union tys | .intersection tys => b.FitsMerging s policy tys
  | _ => True

/-- **A step of rendering under bindings**: from a type in a session to what is rendered next, and
in which session. -/
inductive Passes (b : Bindings) : Session × Ty → Session × Ty → Prop
  | part {s : Session} {inner ty : Ty} : inner.Part ty → (∀ sig, ty ≠ .function sig) →
      Passes b (s, inner) (s, ty)
  | inside {s : Session} {sig : Signature} {inner : Ty} : inner.Part (.function sig) →
      Passes b (s.pushScope sig.typeParams, inner) (s, .function sig)
  | expand {s : Session} {ty body : Ty} {id : Nat} : s.table.Expands ty id body →
      Passes b (s.pushAlias id, body) (s, ty)
  | follow {s : Session} {ty body : Ty} {id : Nat} :
      aliasBody? s.table s.expanding ty = some (id, body) → Passes b (s, body) (s, ty)
  | bound {s : Session} {name : String} {ty : Ty} : b.lookup name = some ty →
      Passes b (s, ty) (s, .param name)

/-- **Bindings fit a type** in a session if they fit all that is rendered on the way. -/
def FitsAll (b : Bindings) (s : Session) (policy : UnionPolicy) (ty : Ty) : Prop :=
  ∀ t part, ReflTransGen b.Passes (t, part) (s, ty) → b.Fits t policy part

lemma FitsAll.of_passes {t : Session} {part ty : Ty} (h : b.FitsAll s policy ty)
    (hpart : ReflTransGen b.Passes (t, part) (s, ty)) : b.FitsAll t policy part :=
  fun u inner hinner => h u inner (hinner.trans hpart)

/-- What a type counts as is rendered on the way. -/
lemma passes_of_components {ty : Ty} {steps : Nat} {list : List Ty}
    (hlist : components s.table s.expanding steps ty = some list) :
    ∀ part ∈ list, ReflTransGen b.Passes (s, part) (s, ty) :=
  components_keep (P := fun part => ReflTransGen b.Passes (s, part) (s, ty))
    (fun _ _ _ hbody h => .head (.follow hbody) h)
    (fun _ h _ hmember => .head (.part (.alternative hmember) fun _ h => by cases h) h)
    (fun _ h _ hmember => .head (.part (.conjunct hmember) fun _ h => by cases h) h) hlist .refl

/-! ### Types that mention nothing bound -/

/-- What an alias stands for mentions nothing bound if its arguments do not. -/
lemma Apart.spares {symbol : Symbol} {args : List Ty} {definition : Ty}
    (h : b.Apart (aliasBindings symbol.typeParams args) definition.occurrences)
    (hargs : ∀ arg ∈ args, b.Spares arg) :
    b.Spares (if symbol.typeParams.isEmpty then definition
      else definition.substitute (aliasBindings symbol.typeParams args)) := by
  split_ifs with hparams
  · rw [List.isEmpty_iff.mp hparams] at h
    exact h.unbound
  · intro name hname
    rcases Ty.mem_freeParams_substitute definition hname with ⟨hmem, hlookup⟩ | hmentions
    · rw [Ty.freeParams_eq] at hmem
      obtain ⟨o, ho, hfree, rfl⟩ := mem_freeNames.mp hmem
      have hplace := h o ho hfree
      rw [hlookup] at hplace
      exact hplace
    · obtain ⟨arg, harg, hmem⟩ := Ty.mem_freeParamsAll.mp (mentionsParam_of_aliasBindings hmentions)
      exact hargs arg harg name hmem

/-- **What is rendered on the way mentions nothing bound** if the type does not. -/
lemma Spares.passes {t : Session} {inner ty : Ty} (h : b.Spares ty) (hfits : b.Fits s policy ty)
    (hpasses : b.Passes (t, inner) (s, ty)) : b.Spares inner := by
  have hall : ∀ {tys : List Ty}, (∀ name ∈ Ty.freeParamsAll tys, b.lookup name = none) →
      inner ∈ tys → b.Spares inner := fun htys hmem name hname =>
    htys name (Ty.mem_freeParamsAll.mpr ⟨inner, hmem, hname⟩)
  have hexpand : ∀ {id}, s.table.Expands ty id inner → b.Spares inner := by
    rintro id ⟨args, symbol, definition, href, hget, hkind, haliased, rfl⟩
    rcases Ty.reference?_eq_some.mp href with ⟨rfl, rfl⟩ | rfl
    · exact (hfits symbol definition hget hkind haliased).spares fun arg harg => by cases harg
    · exact (hfits.1 symbol definition hget hkind haliased).spares fun arg harg =>
        fun name hname => h name (Ty.mem_freeParamsAll.mpr ⟨arg, harg, hname⟩)
  cases hpasses with
  | part hpart hform =>
      cases hpart with
      | argument hmem | component hmem | alternative hmem | conjunct hmem => exact hall h hmem
      | element => exact h
      | result sig => exact absurd rfl (hform sig)
      | param sig => exact absurd rfl (hform sig)
      | call => exact fun name hname => h name (List.mem_append_left _ hname)
  | @inside s sig inner hpart =>
      have hfree : ∀ name ∈ inner.freeParams,
          (∃ p ∈ sig.params, name ∈ p.type.freeParams) ∨ name ∈ sig.result.freeParams := by
        intro name hname
        cases hpart with
        | result => exact Or.inr hname
        | param _ hp => exact Or.inl ⟨_, hp, hname⟩
      intro name hname
      by_cases hdeclared : name ∈ sig.typeParams
      · exact hfits name hdeclared (hfree name hname)
      · exact h name (Signature.mem_freeParams.mpr ⟨hdeclared, hfree name hname⟩)
  | expand hexpands => exact hexpand hexpands
  | follow hbody => exact hexpand (expands_of_aliasBody? hbody)
  | bound hlookup =>
      rw [h _ List.mem_cons_self] at hlookup
      cases hlookup

lemma Spares.of_passes {t : Session} {part ty : Ty} (h : b.Spares ty)
    (hfits : b.FitsAll s policy ty) (hpart : ReflTransGen b.Passes (t, part) (s, ty)) :
    b.Spares part := by
  have hall : ∀ {place : Session × Ty}, ReflTransGen b.Passes place (s, ty) →
      b.Spares place.2 := by
    intro place hplace
    induction hplace using ReflTransGen.head_induction_on with
    | refl => exact h
    | head hinner hrest ih => exact ih.passes (hfits _ _ hrest) hinner
  exact hall hpart

end Bindings

lemma omitsArguments_map {b : Bindings} {args : List Ty}
    (h : ∀ name bound, args = [.param name] → b.lookup name = some bound → bound.isAbsent = false) :
    omitsArguments (args.map (Ty.substitute b)) = omitsArguments args := by
  rcases args with _ | ⟨ty, _ | ⟨second, rest⟩⟩
  · rfl
  · show (ty.substitute b).isAbsent = ty.isAbsent
    cases ty with
    | param name =>
        cases hlookup : b.lookup name with
        | none => simp [Ty.substitute, hlookup]
        | some bound => simpa [Ty.substitute, hlookup, Ty.isAbsent] using h name bound rfl hlookup
    | _ => rfl
  · rfl

/-! ## Unions -/

/-- A type that is rendered under the bindings as another one is without, apart from what notes
say. -/
def Bindings.Agrees (b : Bindings) (s : Session) (policy : UnionPolicy) (ty ty' : Ty) : Prop :=
  ∀ o : RenderOptions, o.Plain → o.policy.getD s.policy = policy →
    s.Concurs s (phraseWithin · ty { o with bindings := some b }) (phraseWithin · ty' o)
      (Phrasing.SameUpTo fun _ => "")

section

variable {b : Bindings} {s : Session} {policy : UnionPolicy}
  (hacyclic : ∀ id, ¬ TransGen s.table.Uses id id) (hnamed : s.Named)
  (hbatch : s.log.mode = .batch)
include hacyclic hnamed hbatch

/-- A group shows what a type shows that is rendered as the group is. -/
lemma showsAs_of_comesTo {ty : Ty} {group : List Ty} (h : s.ComesTo ty group) {o : RenderOptions}
    (hpolicy : o.policy.getD s.policy = policy) {q : Ty → Phrasing}
    (hq : ∀ part, ∀ᶠ depth in atTop, (phraseWithin depth part
      { o with hideComment := true, typeArguments := none }).Gives s.Like (q part))
    {p p' : Phrasing} (hgroup : ∀ᶠ depth in atTop, (phraseWithin depth (Ty.ofGroup group)
      { o with hideComment := true, typeArguments := none }).Gives s.Like p') {n : String → String}
    (hsame : p.SameUpTo n p') : p.ShowsAs n policy q group := by
  obtain ⟨e, he, htypes⟩ := h.merges hacyclic hnamed hbatch
  rcases group with _ | ⟨only, _ | ⟨second, rest⟩⟩
  · exact absurd rfl (h.ne_nil hacyclic hnamed hbatch)
  · obtain rfl := Gives.eventually_unique hgroup (hq only)
    exact .single hsame.phrase
  · have hmembers : s.Merges (Ty.union (only :: second :: rest)).members e := he
    have hunion := hmembers.gives_phrase (q := q)
      (o := { o with hideComment := true, typeArguments := none }) rfl fun part _ => hq part
    obtain rfl := Gives.eventually_unique hgroup hunion
    have hphrase := hsame.phrase
    rw [phrase_unionPhrasing, htypes, hpolicy] at hphrase
    exact .several hphrase

variable {members members' : List Ty} {d d' : DistinctTypes} {groups : List (List Ty)}

/-- **A union, from what its members are merged into.** -/
lemma phraseUnion_agrees (hd : s.Merges members d) (hd' : s.Merges members' d')
    (htypes : d'.types = groups.flatten) (hapart : s.KeepsApart policy groups)
    (hgroups : List.Forall₂ (fun part group => s.ComesTo (part.substitute b) group) d.types groups)
    (hparts : ∀ part ∈ d.types, b.Agrees s policy part (part.substitute b))
    (hlength : 1 < members.length ↔ 1 < members'.length) {o : RenderOptions} (ho : o.Plain)
    (hpolicy : o.policy.getD s.policy = policy) (ty ty' : Ty) : s.Concurs s
      (fun depth => phraseUnion (renderWithin depth) (phraseWithin depth) depth ty members
        { o with bindings := some b })
      (fun depth => phraseUnion (renderWithin depth) (phraseWithin depth) depth ty' members' o)
      (Phrasing.SameUpTo fun _ => "") := by
  have hdisplay : RenderOptions.Plain { o with hideComment := true, typeArguments := none } :=
    ⟨rfl, ho.bindings⟩
  have hshown : ∀ part, ∃ p, part ∈ d.types → ∀ᶠ depth in atTop, (phraseWithin depth part
      { o with hideComment := true, typeArguments := none, bindings := some b }).Gives s.Like
        p := by
    intro part
    by_cases hmem : part ∈ d.types
    · obtain ⟨p, -, hp, -⟩ := hparts part hmem _ hdisplay hpolicy
      exact ⟨p, fun _ => hp⟩
    · exact ⟨.plain [], fun h => absurd h hmem⟩
  choose q hq using hshown
  choose q' hq' using fun part => exists_phrase hacyclic hnamed hbatch part hdisplay
  have hshows : List.Forall₂ (fun part group => (q part).ShowsAs (fun _ => "") policy q' group)
      d.types groups := by
    have hboth : List.Forall₂ (fun part group =>
        (part ∈ d.types ∧ b.Agrees s policy part (part.substitute b)) ∧
          s.ComesTo (part.substitute b) group) d.types groups :=
      (List.forall₂_and_left _ _).mpr ⟨fun part hmem => ⟨hmem, hparts part hmem⟩, hgroups⟩
    refine hboth.imp ?_
    rintro part group ⟨⟨hmem, hagrees⟩, hcomes⟩
    obtain ⟨p, p', hp, hp', hsame⟩ := (hagrees _ hdisplay hpolicy).trans
      (rendered_comesTo hacyclic hnamed hbatch hcomes hdisplay)
      fun _ _ _ => Phrasing.SameUpTo.trans
    obtain rfl := Gives.eventually_unique (hq part hmem) hp
    exact showsAs_of_comesTo hacyclic hnamed hbatch hcomes hpolicy hq' hp' hsame
  have hvague : ∀ part, s.Vague part → (q' part).erase.isConcrete = false := fun part h =>
    h _ hdisplay _ ((hq' part).mono fun depth hdepth =>
      hdepth.erases (phraseWithin_erases depth _ _))
  refine ⟨_, _, hd.gives_union (o := { o with bindings := some b }) (fun part hmem => hq part hmem)
    ty, hd'.gives_union (fun part _ => hq' part) ty', ?_⟩
  refine unionPhrasing_sameUpTo ?_ ?_ hlength ?_
  · rfl
  · rfl
  · rw [htypes, hpolicy]
    exact shownPhrase_flatten hshows fun huntyped => (hapart huntyped).imp fun h =>
      ⟨fun hlong part hmem => hvague part (h.1 hlong part hmem),
        fun hlong part hmem => hvague part (h.2 hlong part hmem)⟩

/-- The type that stands for merged types. -/
lemma representative_agrees {tys : List Ty} (halike : b.MergesAlike s policy tys)
    (hparts : ∀ d, s.Merges tys d → ∀ part ∈ d.types, b.Agrees s policy part (part.substitute b)) :
    s.Concurs s (fun depth => DistinctTypes.representative (renderWithin depth) depth tys)
      (fun depth => DistinctTypes.representative (renderWithin depth) depth
        (tys.map (Ty.substitute b))) (b.Agrees s policy) := by
  obtain ⟨d, hd, hself⟩ := s.exists_merges hacyclic hnamed hbatch tys
  obtain ⟨d', hd', hself'⟩ := s.exists_merges hacyclic hnamed hbatch (tys.map (Ty.substitute b))
  obtain ⟨groups, htypes, hapart, hgroups⟩ := halike d d' hd hd'
  have hparts := hparts d hd
  refine .map (P := fun e e' => e = d ∧ e' = d') ⟨d, d', hd, hd', rfl, rfl⟩ ?_
  rintro e e' ⟨he, he'⟩ o ho hpolicy
  rw [he, he']
  show s.Concurs s (phraseWithin · (Ty.ofGroup d.types) { o with bindings := some b })
    (phraseWithin · (Ty.ofGroup d'.types) o) _
  rcases hall : d.types with _ | ⟨part, _ | ⟨next, rest⟩⟩
  · rw [hall] at hgroups
    cases hgroups
    rw [htypes]
    exact .of_succ (.pure (.refl _))
  · rw [hall] at hgroups
    cases hgroups with
    | cons hcomes hnil =>
        cases hnil
        rw [htypes, List.flatten_singleton]
        exact (hparts part (by rw [hall]; exact List.mem_cons_self) o ho hpolicy).trans
          (rendered_comesTo hacyclic hnamed hbatch hcomes ho) fun _ _ _ => Phrasing.SameUpTo.trans
  · have hlong : 1 < d.types.length := by simp [hall]
    have hlong' : 1 < d'.types.length := by
      rw [htypes]
      rw [hall] at hgroups
      rcases hgroups with _ | ⟨hfirst, _ | ⟨hsecond, -⟩⟩
      have hfirst := List.length_pos_of_ne_nil (hfirst.ne_nil hacyclic hnamed hbatch)
      have hsecond := List.length_pos_of_ne_nil (hsecond.ne_nil hacyclic hnamed hbatch)
      simp only [List.flatten_cons, List.length_append]
      omega
    rw [← hall, Ty.ofGroup_of_lt hlong, Ty.ofGroup_of_lt hlong']
    exact .of_succ (phraseUnion_agrees hacyclic hnamed hbatch hself hself' htypes hapart hgroups
      hparts (iff_of_true hlong hlong') ho hpolicy _ _)

/-- Types that mention nothing bound are merged alike. -/
lemma Bindings.FitsMerging.alike {tys : List Ty} (h : b.FitsMerging s policy tys)
    (hspares : ∀ d, s.Merges tys d → (∀ ty ∈ tys, b.Spares ty) → ∀ part ∈ d.types, b.Spares part) :
    b.MergesAlike s policy tys := by
  rcases h with hall | h
  · intro d d' hd hd'
    have hsame : tys.map (Ty.substitute b) = tys :=
      (List.map_congr_left fun ty hty => Ty.substitute_of_unbound (hall ty hty)).trans
        (List.map_id tys)
    rw [hsame] at hd'
    obtain rfl := hd.unique hd'
    refine ⟨d.types.map ([·]), ?_, fun _ => ?_, ?_⟩
    · rw [← List.flatMap_def, List.flatMap_singleton']
    · rw [List.pairwise_map]
      exact List.pairwise_of_forall fun _ _ => ⟨fun h => by simp at h, fun h => by simp at h⟩
    · rw [List.forall₂_map_right_iff, List.forall₂_same]
      intro part hpart
      rw [Ty.substitute_of_unbound (hspares d hd hall part hpart)]
      exact hd.comesTo hacyclic hnamed hbatch hpart
  · exact h

/-- A type that is looked through to no union comes to that. -/
lemma comesTo_of_not_isUnion {ty : Ty}
    (hform : (followAliases s.table s.expanding ty).isUnion = false) :
    s.ComesTo ty [followAliases s.table s.expanding ty] :=
  ⟨merges_followAliases hacyclic hnamed hbatch hform, fun h => by rw [hform] at h; cases h⟩

/-- **A type parameter alone** is merged like what it stands for, unless that is a union that comes
to one type. -/
lemma mergesAlike_param {name : String} {bound : Ty} (hlookup : b.lookup name = some bound)
    {group : List Ty} (hbound : s.ComesTo bound group) : b.MergesAlike s policy [.param name] := by
  have hsubstitute : (Ty.param name).substitute b = bound := by simp [Ty.substitute, hlookup]
  have hform : (followAliases s.table s.expanding (.param name)).isUnion = false := rfl
  obtain ⟨e, he, htypes⟩ := merges_followAliases hacyclic hnamed hbatch hform
  obtain ⟨e', he', hgroup⟩ := hbound.1
  intro d d' hd hd'
  rw [List.map_singleton, hsubstitute] at hd'
  refine ⟨[group], ?_, fun _ => List.pairwise_singleton _ _, ?_⟩
  · rw [hd'.unique he', hgroup, List.flatten_singleton]
  · rw [hd.unique he, htypes]
    exact .cons (hsubstitute.symm ▸ hbound) .nil

end

/-! ## All forms -/

section

variable {b : Bindings} {s : Session} {policy : UnionPolicy} {o : RenderOptions}

/-- The type of functions with a signature. -/
lemma phraseFunction_agrees {sig : Signature} (hfits : b.Fits s policy (.function sig))
    (hparts : ∀ part : Ty, part.Part (.function sig) →
      b.Agrees (s.pushScope sig.typeParams) policy part (part.substitute b)) (ho : o.Plain)
    (hpolicy : o.policy.getD s.policy = policy) : s.Concurs s
      (fun depth => phraseFunction (phraseWithin depth) sig { o with bindings := some b })
      (fun depth => phraseFunction (phraseWithin depth) (sig.substitute b) o)
      (Phrasing.SameUpTo fun _ => "") := by
  obtain ⟨typeParams, params, result⟩ := sig
  -- inside the signature nothing is bound that it declares, so nothing is hidden
  have hinner : ∀ part : Ty, part.Part (.function ⟨typeParams, params, result⟩) →
      (∀ name ∈ typeParams, name ∈ part.freeParams → b.lookup name = none) →
        b.Agrees (s.pushScope typeParams) policy part (part.substitute (b.hiding typeParams)) := by
    intro part hpart hdeclared
    rw [Ty.substitute_congr part fun name hname => ?_]
    · exact hparts part hpart
    · by_cases hmem : name ∈ typeParams
      · rw [Bindings.lookup_hiding_of_mem hmem, hdeclared name hmem hname]
      · exact Bindings.lookup_hiding hmem
  let replaced (p : Param) : Param := { p with type := p.type.substitute (b.hiding typeParams) }
  have hsubstitute : Signature.substitute b ⟨typeParams, params, result⟩ =
      ⟨typeParams, params.map replaced, result.substitute (b.hiding typeParams)⟩ := by
    have hparams : params.map (Param.substitute (b.hiding typeParams)) = params.map replaced :=
      List.map_congr_left fun p _ => by cases p; rfl
    rw [Signature.substitute, Param.substituteAll_eq, hparams]
  have hnotes : RenderOptions.annotates { o with bindings := some b } = o.annotates := rfl
  rw [hsubstitute]
  refine phraseFunction_concurs (s := s) hnotes
    (by simp only [Signature.isVariadic, List.any_map]; rfl) rfl rfl ?_
  refine phraseSignature_concurs (f := replaced) rfl rfl (fun p hp => ⟨rfl, ?_⟩) ?_
  · exact hinner p.type (.param ⟨typeParams, params, result⟩ hp)
      (fun name hname hmem => hfits name hname (Or.inl ⟨p, hp, hmem⟩)) o.nested
      ⟨rfl, ho.bindings⟩ hpolicy
  · exact hinner result (.result ⟨typeParams, params, result⟩)
      (fun name hname hmem => hfits name hname (Or.inr hmem)) o.nested ⟨rfl, ho.bindings⟩ hpolicy

variable (hnamed : s.Named) (hbatch : s.log.mode = .batch)
  (hacyclic : ∀ id, ¬ TransGen s.table.Uses id id) {ty : Ty} (hfits : b.FitsAll s policy ty)
  (hpassed : ∀ t inner, TransGen s.table.Unfolds inner ty →
    ReflTransGen b.Passes (t, inner) (s, ty) → b.Agrees t policy inner (inner.substitute b))
include hnamed hbatch hacyclic hfits hpassed

/-- What parts of a type are merged into. -/
lemma mergesAlike_of_passed {tys : List Ty} (htys : ∀ inner ∈ tys, inner.Part ty)
    (hform : ∀ sig, ty ≠ .function sig) (hmerging : b.FitsMerging s policy tys) :
    b.MergesAlike s policy tys ∧ ∀ d, s.Merges tys d → ∀ part ∈ d.types,
      b.Agrees s policy part (part.substitute b) := by
  have hreached : ∀ d, s.Merges tys d → ∀ part ∈ d.types, ∃ inner ∈ tys,
      b.Passes (s, inner) (s, ty) ∧ ReflTransGen b.Passes (s, part) (s, inner) ∧
        TransGen s.table.Unfolds part ty := by
    intro d hd part hmem
    obtain ⟨inner, hinner, steps, list, hlist, hmem⟩ :=
      hd.mem_components hacyclic hnamed hbatch hmem
    exact ⟨inner, hinner, .part (htys inner hinner) hform,
      Bindings.passes_of_components hlist part hmem,
      .tail' (unfolds_components hlist part hmem) (.part (htys inner hinner))⟩
  refine ⟨hmerging.alike hacyclic hnamed hbatch fun d hd hspares part hmem => ?_,
    fun d hd part hmem => ?_⟩
  · obtain ⟨inner, hinner, hpart, hpasses, -⟩ := hreached d hd part hmem
    exact (hspares inner hinner).of_passes (hfits.of_passes (.single hpart)) hpasses
  · obtain ⟨inner, hinner, hpart, hpasses, hunfolds⟩ := hreached d hd part hmem
    exact hpassed s part hunfolds (hpasses.tail hpart)

/-- A union or intersection of parts of a type. -/
lemma unionParts_agree {tys : List Ty} (htys : ∀ inner ∈ tys, inner.Part ty)
    (hform : ∀ sig, ty ≠ .function sig) (hmerging : b.FitsMerging s policy tys) (ty' : Ty)
    (ho : o.Plain) (hpolicy : o.policy.getD s.policy = policy) : s.Concurs s
      (fun depth => phraseUnion (renderWithin depth) (phraseWithin depth) depth ty tys
        { o with bindings := some b })
      (fun depth => phraseUnion (renderWithin depth) (phraseWithin depth) depth ty'
        (tys.map (Ty.substitute b)) o) (Phrasing.SameUpTo fun _ => "") := by
  obtain ⟨halike, hparts⟩ :=
    mergesAlike_of_passed hnamed hbatch hacyclic hfits hpassed htys hform hmerging
  obtain ⟨d, hd, -⟩ := s.exists_merges hacyclic hnamed hbatch tys
  obtain ⟨d', hd', -⟩ := s.exists_merges hacyclic hnamed hbatch (tys.map (Ty.substitute b))
  obtain ⟨groups, htypes, hapart, hgroups⟩ := halike d d' hd hd'
  exact phraseUnion_agrees hacyclic hnamed hbatch hd hd' htypes hapart hgroups (hparts d hd)
    (by rw [List.length_map]) ho hpolicy ty ty'

omit hacyclic hfits in
/-- A reference. -/
lemma reference_agrees {id : Nat} {args : List Ty} (href : ty.reference? = some (id, args))
    (halias : b.FitsAlias s.table id args)
    (hsole : ∀ symbol name bound, s.table.get? id = some symbol → symbol.kind ≠ .alias →
      args = [.param name] → b.lookup name = some bound → bound.isAbsent = false)
    (ho : o.Plain) (hpolicy : o.policy.getD s.policy = policy) : s.Concurs s
      (fun depth => phraseSymbol (phraseWithin depth) id args { o with bindings := some b })
      (fun depth => phraseSymbol (phraseWithin depth) id (args.map (Ty.substitute b)) o)
      (Phrasing.SameUpTo fun _ => "") := by
  have hnotes : RenderOptions.annotates { o with bindings := some b } = o.annotates := rfl
  have hexpanding : s.expanding.contains id = s.expanding.contains id := rfl
  refine phraseSymbol_concurs hnotes hnamed hbatch hexpanding
    (fun symbol hget hkind => ?_) (fun arg harg => ?_)
    fun symbol definition hget hkind haliased => ?_
  · exact omitsArguments_map fun name bound => hsole symbol name bound hget hkind
  · have hpart := Ty.part_of_reference? href harg
    have hpasses : b.Passes (s, arg) (s, ty) :=
      .part hpart fun sig h => by rw [h] at href; cases href
    exact hpassed s arg (.single (.part hpart)) (.single hpasses) o.argument ⟨rfl, ho.bindings⟩
      hpolicy
  · rw [← (halias symbol definition hget hkind haliased).expansion]
    have hexpands : s.table.Expands ty id (if symbol.typeParams.isEmpty then definition
        else definition.substitute (aliasBindings symbol.typeParams args)) :=
      ⟨args, symbol, definition, href, hget, hkind, haliased, rfl⟩
    exact hpassed _ _ (.single (.expand hexpands)) (.single (.expand hexpands))
      { o with typeArguments := none } ⟨rfl, ho.bindings⟩ hpolicy

/-- **One type**, from what is rendered on the way and from what is bound. -/
lemma agrees_of_passed (hbound : ∀ name bound, ty = .param name → b.lookup name = some bound →
    b.Agrees s policy bound bound) : b.Agrees s policy ty (ty.substitute b) := by
  intro o ho hpolicy
  have hself := hfits s ty .refl
  refine .of_succ ?_
  cases ty with
  | primitive kind => exact .pure (by cases kind <;> exact .refl _)
  | literal kind text => exact .pure (by cases kind <;> exact .refl _)
  | raw text => exact .pure (.refl _)
  | nominal id args =>
      have h := reference_agrees hnamed hbatch hpassed rfl hself.1 hself.2 ho hpolicy
      rw [← Ty.substituteAll_eq] at h
      exact h
  | «alias» id =>
      have href : (Ty.alias id).reference? = some (id, []) := rfl
      have h := reference_agrees hnamed hbatch hpassed href hself
        (fun _ _ _ _ _ hargs => by cases hargs) ho hpolicy
      simp only [phraseWithin, Ty.substitute, ho.typeArguments]
      exact h
  | function sig =>
      exact phraseFunction_agrees hself (fun part hpart =>
        hpassed _ part (.single (.part hpart)) (.single (.inside hpart))) ho hpolicy
  | array element =>
      obtain ⟨halike, hparts⟩ := mergesAlike_of_passed hnamed hbatch hacyclic hfits hpassed
        (List.forall_mem_singleton.mpr .element) (fun _ h => by cases h) hself
      refine .bind (representative_agrees hacyclic hnamed hbatch halike hparts)
        fun part part' hagrees => ?_
      refine .map (hagrees o.argument ⟨rfl, ho.bindings⟩ hpolicy) fun p p' hsame => .plain ?_
      simp [hsame.withComment]
  | tuple elements =>
      obtain ⟨halike, hparts⟩ := mergesAlike_of_passed hnamed hbatch hacyclic hfits hpassed
        (fun _ => .component) (fun _ h => by cases h) hself
      have h := representative_agrees hacyclic hnamed hbatch halike hparts
      rw [← Ty.substituteAll_eq] at h
      refine .bind h fun part part' hagrees => ?_
      refine .bind (hagrees { o.argument with hideComment := true } ⟨rfl, ho.bindings⟩ hpolicy)
        fun p p' hsame => .table_bind (.pure (.annotated ?_ rfl rfl))
      simp [hsame.withComment]
  | shape members =>
      cases hcall : Member.onlyCall? members with
      | none =>
          have hcall' : Member.onlyCall? (Member.substituteAll b members) = none := by
            rw [Inlines.onlyCall?_substituteAll, hcall, Option.map_none]
          simp only [phraseWithin, Ty.substitute, phraseShape_of_none hcall,
            phraseShape_of_none hcall']
          exact .table_bind (.pure (.annotated rfl rfl rfl))
      | some sig =>
          obtain ⟨name, isStatic, span, rfl⟩ := Member.onlyCall?_eq_some.mp hcall
          have hunfolds : s.table.Unfolds (.function sig)
            (.shape [⟨name, .call sig, isStatic, span⟩]) := .part .call
          have hpasses : b.Passes (s, .function sig)
            (s, .shape [⟨name, .call sig, isStatic, span⟩]) :=
              .part .call fun _ h => by cases h
          exact phraseFunction_agrees (hfits _ _ (.single hpasses)) (fun part hpart =>
            hpassed _ part (.head (.part hpart) (.single hunfolds))
              (.head (.inside hpart) (.single hpasses))) ho hpolicy
  | param name =>
      cases hlookup : b.lookup name with
      | some bound =>
          obtain ⟨p, p', hp, hp', hsame⟩ := hbound name bound rfl hlookup o ho hpolicy
          refine ⟨p, p', ?_, ?_, hsame⟩
          · simpa only [phraseWithin, Option.bind_some, hlookup] using hp
          · simpa only [Ty.substitute, hlookup, Option.getD_some] using eventually_succ hp'
      | none =>
          simp only [phraseWithin, Ty.substitute, hlookup, Option.getD_none, Option.bind_some,
            ho.bindings, Option.bind_none]
          refine .get_bind (fun depth s hs => by rw [hs.inScope])
            (fun depth s hs => by rw [hs.inScope]) ?_
          split_ifs
          · exact .pure (.refl _)
          · exact .pure (.refl _)
  | union members =>
      have h := unionParts_agree hnamed hbatch hacyclic hfits hpassed (fun _ => .alternative)
        (fun _ h => by cases h) hself (.union (members.map (Ty.substitute b))) ho hpolicy
      rw [← Ty.substituteAll_eq] at h
      exact h
  | intersection members =>
      have h := unionParts_agree hnamed hbatch hacyclic hfits hpassed (fun _ => .conjunct)
        (fun _ h => by cases h) hself (.intersection (members.map (Ty.substitute b))) ho hpolicy
      rw [← Ty.substituteAll_eq] at h
      exact h

end

namespace Bindings

variable {b : Bindings} {s t : Session} {policy : UnionPolicy} {part ty : Ty}

/-- Only scopes and expansions change on the way. -/
lemma inside_of_passes (h : ReflTransGen b.Passes (t, part) (s, ty)) :
    ∃ scopes expanding, t = s.inside scopes expanding := by
  have hall : ∀ {place : Session × Ty}, ReflTransGen b.Passes place (s, ty) →
      ∃ scopes expanding, place.1 = s.inside scopes expanding := by
    intro place hplace
    induction hplace using ReflTransGen.head_induction_on with
    | refl => exact ⟨s.scopes, s.expanding, rfl⟩
    | head hinner _ ih =>
        obtain ⟨scopes, expanding, hsession⟩ := ih
        cases hinner with
        | part | follow | bound => exact ⟨scopes, expanding, hsession⟩
        | inside => subst hsession; exact ⟨_ :: scopes, expanding, rfl⟩
        | expand => subst hsession; exact ⟨scopes, _ :: expanding, rfl⟩
  exact hall h

end Bindings

/-- **Rendering under bindings is rendering with the bindings put in**, where they fit all that is
rendered on the way, and what they bind is rendered under them as it is without. -/
lemma agrees_substitute {b : Bindings} {policy : UnionPolicy} (table : SymbolTable)
    (hacyclic : ∀ id, ¬ TransGen table.Uses id id) (ty : Ty) : ∀ s : Session, s.table = table →
    s.Named → s.log.mode = .batch → b.FitsAll s policy ty →
    (∀ t name bound, ReflTransGen b.Passes (t, .param name) (s, ty) → b.lookup name = some bound →
      b.Agrees t policy bound bound) → b.Agrees s policy ty (ty.substitute b) := by
  induction ty using (SymbolTable.unfolds_wellFounded hacyclic).transGen.induction with
  | _ ty ih =>
      rintro s rfl hnamed hbatch hfits hbound
      refine agrees_of_passed hnamed hbatch hacyclic hfits (fun t inner hinner hpasses => ?_)
        fun name bound hname hlookup => hbound s name bound (hname ▸ .refl) hlookup
      obtain ⟨scopes, expanding, rfl⟩ := Bindings.inside_of_passes hpasses
      exact ih inner hinner _ rfl (hnamed.inside scopes expanding) hbatch (hfits.of_passes hpasses)
        fun t name bound hname => hbound t name bound (hname.trans hpasses)

/-- A type that mentions nothing bound is rendered under the bindings as it is without. -/
lemma Bindings.Spares.agrees {b : Bindings} {s : Session} {policy : UnionPolicy} {ty : Ty}
    (h : b.Spares ty) (hacyclic : ∀ id, ¬ TransGen s.table.Uses id id) (hnamed : s.Named)
    (hbatch : s.log.mode = .batch) (hfits : b.FitsAll s policy ty) : b.Agrees s policy ty ty := by
  have hagrees := agrees_substitute s.table hacyclic ty s rfl hnamed hbatch hfits
    fun t name bound hname hlookup =>
      absurd (h.of_passes hfits hname name List.mem_cons_self) (by simp [hlookup])
  rwa [Ty.substitute_of_unbound h] at hagrees

/-! ## In both modes -/

namespace Session

variable {s : Session}

lemma Named.settled (h : s.Named) : s.Settled fun _ => True where
  exhausted := trivial
  foreign _ _ _ _ _ _ := trivial
  named := h.given
  signature _ _ _ _ _ := trivial
  type _ _ _ _ _ := trivial

/-- **Whatever comes out comes out.**  With any bound, and also where nothing may be reported, a
type is rendered as the same thing if it is rendered at all. -/
lemma Renders.of_ok {ty : Ty} {o : RenderOptions} {r r' : Rendered} (h : s.Renders ty o r)
    (hnamed : s.Named) (hbatch : s.log.mode = .batch) {mode : ReportMode} {depth : Nat}
    (hrun : ((renderWithin depth ty o).exec (s.inMode mode)).1 = .ok r') : r' = r := by
  -- the two runs replay one trace, and no step of it fails where diagnostics are collected
  obtain ⟨t, -, hreplay⟩ := renderWithin_traced depth ty o s hnamed.settled rfl
  rw [hreplay (s.inMode mode) rfl, Trace.replay] at hrun
  have houtcome : t.outcome = .ok r' := by
    rcases hsteps : (s.inMode mode).replay t.steps with ⟨_ | _, u⟩ <;> rw [hsteps] at hrun
    · cases hrun
    · exact hrun
  have hcollected : ((renderWithin depth ty o).exec s).1 = .ok r' := by
    have hok := (replay_batch t.steps hbatch).1
    rw [hreplay s rfl, Trace.replay]
    rcases hsteps : s.replay t.steps with ⟨_ | _, u⟩ <;> rw [hsteps] at hok
    · cases hok
    · exact houtcome
  obtain ⟨more, hmore, hle⟩ := (h.and (eventually_ge_atTop depth)).exists
  have hgives := hmore.exec (.refl s)
  rcases renderWithin_refines hle ty o s with hexhausted | hsame
  · rw [hexhausted] at hcollected
    cases hcollected
  · rw [hsame, hcollected] at hgives
    exact Except.ok.inj hgives

end Session

/-- **The two ways to instantiate type parameters agree**, where the bindings fit what is rendered
on the way.  Rendering a type under bindings and rendering it with the bindings put in come to types
that differ in what their notes say and in nothing else: with their comments deleted, the texts are
the same, and both have an annotation or neither has one.  So it is with every bound that is large
enough; and whatever comes out with other bounds, or where nothing may be reported, is the same. -/
theorem instantiations_agree {s : Session} (hacyclic : ∀ id, ¬ TransGen s.table.Uses id id)
    (hnamed : s.Named) (hbatch : s.log.mode = .batch) {b : Bindings}
    (hclosed : ∀ name bound, b.lookup name = some bound → bound.freeParams = []) {ty : Ty}
    {o : RenderOptions} (ho : o.Plain) (hfits : b.FitsAll s (o.policy.getD s.policy) ty) :
    ∃ p p' : Phrasing, s.Renders ty { o with bindings := some b } p.erase ∧
      s.Renders (ty.substitute b) o p'.erase ∧
      p.phrase.mapNotes (fun _ => "") = p'.phrase.mapNotes (fun _ => "") ∧
      p.note.isSome = p'.note.isSome ∧
      (∀ mode depth r, ((renderWithin depth ty { o with bindings := some b }).exec
        (s.inMode mode)).1 = .ok r → r = p.erase) ∧
      (∀ mode depth r, ((renderWithin depth (ty.substitute b) o).exec (s.inMode mode)).1 = .ok r →
        r = p'.erase) ∧
      ∀ A : Alphabet, (∀ c, A.code c → c ≠ '/') → s.Over A → ty.Over A → b.Over A →
        ((∀ note ∈ p.phrase.notes ++ p'.phrase.notes, Contained note) →
          uncommented 0 p.erase.text.toList = some p.phrase.code.toList ∧
          uncommented 0 p'.erase.text.toList = some p.phrase.code.toList) ∧
        ((∀ c, A.note c → c ≠ '/') → ∀ note ∈ p.phrase.notes ++ p'.phrase.notes,
          Contained note) := by
  have hbound : ∀ t name bound, ReflTransGen b.Passes (t, .param name) (s, ty) →
      b.lookup name = some bound → b.Agrees t (o.policy.getD s.policy) bound bound := by
    intro t name bound hname hlookup
    have hspares : b.Spares bound := fun other hother => by
      rw [hclosed name bound hlookup] at hother
      cases hother
    have hbound := hfits.of_passes (.head (.bound hlookup) hname)
    obtain ⟨scopes, expanding, rfl⟩ := Bindings.inside_of_passes hname
    exact hspares.agrees hacyclic (hnamed.inside scopes expanding) hbatch hbound
  obtain ⟨p, p', hp, hp', hsame⟩ :=
    agrees_substitute s.table hacyclic ty s rfl hnamed hbatch hfits hbound o ho rfl
  have hrenders : s.Renders ty { o with bindings := some b } p.erase := by
    filter_upwards [hp] with depth hdepth using hdepth.erases (phraseWithin_erases depth _ _)
  have hrenders' : s.Renders (ty.substitute b) o p'.erase := by
    filter_upwards [hp'] with depth hdepth using hdepth.erases (phraseWithin_erases depth _ _)
  refine ⟨p, p', hrenders, hrenders', hsame.phrase, hsame.isSome_note,
    fun mode depth r => hrenders.of_ok hnamed hbatch,
    fun mode depth r => hrenders'.of_ok hnamed hbatch, fun A hslash hover hty hb => ?_⟩
  have hspelled : p.phrase.Over A := by
    obtain ⟨depth, hdepth⟩ := hp.exists
    have hbinds : RenderOptions.Over A { o with bindings := some b } :=
      ⟨by simp [ho.typeArguments], by simpa using hb⟩
    exact ((phraseWithin_over hnamed.settled hover depth ty _ hty hbinds s (.refl s)).2 p
      (hdepth.exec (.refl s))).phrase
  have hspelled' : p'.phrase.Over A := by
    obtain ⟨depth, hdepth⟩ := hp'.exists
    exact ((phraseWithin_over hnamed.settled hover depth (ty.substitute b) o
      (Ty.over_substitute ty hb hty) ho.over s (.refl s)).2 p' (hdepth.exec (.refl s))).phrase
  refine ⟨fun hnotes => ⟨?_, ?_⟩, fun hslashes note hnote => ?_⟩
  · exact Phrase.uncommented_text hslash hspelled fun note hnote =>
      hnotes note (List.mem_append_left _ hnote)
  · rw [hsame.code]
    exact Phrase.uncommented_text hslash hspelled' fun note hnote =>
      hnotes note (List.mem_append_right _ hnote)
  · rcases List.mem_append.mp hnote with hnote | hnote
    · exact contained_of_slashless ((hspelled _ (Phrase.mem_notes.mp hnote)).imp hslashes)
    · exact contained_of_slashless ((hspelled' _ (Phrase.mem_notes.mp hnote)).imp hslashes)

/-- A function of an alias, of a list of what is bound, and of something of its own. -/
def packsBoxes : Ty := .function {
  typeParams := ["U"]
  params := [⟨"crate", .alias 1, false, false⟩, ⟨"items", .array (.param "T"), false, false⟩,
    ⟨"label", .param "U", false, false⟩]
  result := .param "T" }

/-- What the bindings `T := number` meet in the function. -/
lemma mem_of_passes_packsBoxes {place : Session × Ty}
    (h : ReflTransGen (Bindings.Passes [("T", .primitive .number)]) place
      (boxSession, packsBoxes)) :
    place.1.table = boxSession.table ∧ place.2 ∈ [packsBoxes, .alias 1, .nominal 0 [],
      .array (.param "T"), .param "T", .primitive .number, .param "U"] := by
  have hexpands : ∀ {ty body id}, boxSession.table.Expands ty id body → body = .nominal 0 [] := by
    rintro ty body id ⟨args, symbol, definition, -, hget, hkind, haliased, rfl⟩
    rcases id with _ | _ | id
    · obtain rfl := Option.some.inj hget
      cases hkind
    · obtain rfl := Option.some.inj hget
      obtain rfl := Option.some.inj haliased
      rfl
    · cases hget
  induction h using ReflTransGen.head_induction_on with
  | refl => exact ⟨rfl, List.mem_cons_self⟩
  | head hinner _ ih =>
      obtain ⟨htable, hmem⟩ := ih
      cases hinner with
      | part hpart hform =>
          simp only [List.mem_cons, List.not_mem_nil, or_false] at hmem
          rcases hmem with rfl | rfl | rfl | rfl | rfl | rfl | rfl
          · exact absurd rfl (hform _)
          · cases hpart
          · cases hpart with
            | argument hmem => cases hmem
          · cases hpart
            exact ⟨htable, by simp⟩
          · cases hpart
          · cases hpart
          · cases hpart
      | inside hpart =>
          simp only [packsBoxes, List.mem_cons, List.not_mem_nil, or_false, reduceCtorEq,
            Ty.function.injEq] at hmem
          subst hmem
          cases hpart with
          | result => exact ⟨htable, by simp⟩
          | param _ hp =>
              simp only [List.mem_cons, List.not_mem_nil, or_false] at hp
              rcases hp with rfl | rfl | rfl <;> exact ⟨htable, by simp⟩
      | expand hbody =>
          rw [htable] at hbody
          exact ⟨htable, by simp [hexpands hbody]⟩
      | follow hbody =>
          rw [htable] at hbody
          exact ⟨htable, by simp [hexpands (expands_of_aliasBody? hbody)]⟩
      | bound hlookup =>
          simp only [packsBoxes, List.mem_cons, List.not_mem_nil, or_false, reduceCtorEq,
            Ty.param.injEq, false_or] at hmem
          rcases hmem with rfl | rfl
          · obtain rfl := Option.some.inj hlookup
            exact ⟨htable, by simp⟩
          · cases hlookup

/-- The bindings fit the function: the list is of what is bound, and nothing else is merged. -/
lemma fitsAll_packsBoxes :
    Bindings.FitsAll [("T", .primitive .number)] boxSession .firstConcrete packsBoxes := by
  intro t part hpart
  obtain ⟨-, hmem⟩ := mem_of_passes_packsBoxes hpart
  obtain ⟨scopes, expanding, rfl⟩ := Bindings.inside_of_passes hpart
  have hnamed : (boxSession.inside scopes expanding).Named :=
    boxSession_named.inside scopes expanding
  have hacyclic : ∀ id, ¬ TransGen (boxSession.inside scopes expanding).table.Uses id id :=
    boxSession_acyclic
  simp only [List.mem_cons, List.not_mem_nil, or_false] at hmem
  rcases hmem with rfl | rfl | rfl | rfl | rfl | rfl | rfl
  · intro name hname _
    obtain rfl := List.mem_singleton.mp hname
    rfl
  · intro symbol definition hget _ haliased
    obtain rfl := Option.some.inj hget
    obtain rfl := Option.some.inj haliased
    intro o ho
    cases ho
  · refine ⟨fun symbol definition hget hkind => ?_, fun _ _ _ _ _ hargs => by cases hargs⟩
    obtain rfl := Option.some.inj hget
    cases hkind
  · exact Or.inr (mergesAlike_param hacyclic hnamed rfl rfl
      (comesTo_of_not_isUnion hacyclic hnamed rfl rfl))
  · trivial
  · trivial
  · trivial

/-- A function in which nothing stands in the way of `T := number`: its alias is another name of the
interface `Box`, and its own `U` is left alone. -/
theorem instantiations_agree_packsBoxes :
    boxSession.Renders packsBoxes { bindings := some [("T", .primitive .number)] }
        { text := "num Function<U>(Box, List<num>, U)" } ∧
      boxSession.Renders (packsBoxes.substitute [("T", .primitive .number)]) {}
        { text := "num Function<U>(Box, List<num>, U)" } := by
  have hclosed : ∀ name bound, List.lookup name [("T", Ty.primitive .number)] = some bound →
      bound.freeParams = [] := by
    intro name bound hlookup
    obtain rfl : bound = .primitive .number := by
      rw [List.lookup_cons] at hlookup
      split at hlookup <;> simp_all
    rfl
  obtain ⟨p, p', hp, hp', -, -, hruns, hruns', -⟩ := instantiations_agree boxSession_acyclic
    boxSession_named rfl hclosed (o := {}) ⟨rfl, rfl⟩ fitsAll_packsBoxes
  have htext := hruns .batch 8 { text := "num Function<U>(Box, List<num>, U)" } rfl
  have htext' := hruns' .batch 8 { text := "num Function<U>(Box, List<num>, U)" } rfl
  exact ⟨htext ▸ hp, htext' ▸ hp'⟩

/-- A function that takes and returns something of its own `T`. -/
def returnsOwn : Ty := .function ⟨["T"], [⟨"x", .param "T", false, false⟩], .param "T"⟩

/-- Under `T := number` even the `T` of the function itself is a number, though there is no `T` to
put anything in for. -/
theorem instantiations_disagree :
    returnsOwn.freeParams = [] ∧
      returnsOwn.substitute [("T", .primitive .number)] = returnsOwn ∧
      ((render returnsOwn { bindings := some [("T", .primitive .number)] }).exec boxSession).1 =
        .ok { text := "num Function<T>(num)" } ∧
      ((render (returnsOwn.substitute [("T", .primitive .number)]) {}).exec boxSession).1 =
        .ok { text := "T Function<T>(T)" } ∧
      uncommented 0 "num Function<T>(num)".toList ≠ uncommented 0 "T Function<T>(T)".toList := by
  refine ⟨by decide, rfl, rfl, rfl, by decide⟩

end Interop
