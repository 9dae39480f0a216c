import Interop.Proofs.Keys

/-!
# Keys of unions

A union is shown as one of the types that it counts as, so its key is one of theirs.  To find it,
the types are merged by their keys, each is rendered once more to see whether it says anything, and
one more time to be shown.  All of that comes to a function of the keys alone, and so a union has
the same key however its members are nested, repeated or abbreviated.

* `SymbolTable.Flattens` — what types count as, said by equations.
* `DistinctTypes.Collected` — what adding types one after another comes to.
* `UnionPolicy.shownKey` — the key that a policy makes of several.
* `Session.gives_renderMerged` — what a union is rendered as, from what its members are merged into.
* **`Session.renders_union`** — it is the key of a union of types with these keys.
* **`union_keys`** — what follows for unions.
-/

namespace Interop

open Filter Relation Work

/-! ## What types count as -/

/-- **A reference that stands for a type**: to an alias without parameters. -/
def SymbolTable.Abbreviates (table : SymbolTable) (ty body : Ty) : Prop :=
  ∃ id symbol, (ty = .alias id ∨ ty = .nominal id []) ∧ table.get? id = some symbol ∧
    symbol.kind = .alias ∧ symbol.typeParams = [] ∧ symbol.aliased = some body

/-- **What types count as**: unions and intersections as what their members count as, abbreviations
as what the abbreviated type counts as, and any other type as itself. -/
structure SymbolTable.Flattens (table : SymbolTable) (parts : Ty → List Ty) : Prop where
  union : ∀ members, parts (.union members) = members.flatMap parts
  intersection : ∀ members, parts (.intersection members) = members.flatMap parts
  abbreviation : ∀ ty body, table.Abbreviates ty body → parts ty = parts body
  other : ∀ ty, (∀ members, ty ≠ .union members ∧ ty ≠ .intersection members) →
    (∀ body, ¬ table.Abbreviates ty body) → parts ty = [ty]

namespace SymbolTable

variable {table : SymbolTable}

lemma abbreviates_iff {ty body : Ty} :
    table.Abbreviates ty body ↔ ∃ id, aliasBody? table [] ty = some (id, body) := by
  simp [Abbreviates, aliasBody?_eq_some]

/-- **What the components of types are, types count as**, where aliases are not recursive. -/
theorem exists_flattens (hacyclic : ∀ id, ¬ TransGen table.Uses id id) :
    ∃ parts, (∀ ty, ∀ᶠ steps in atTop, components table [] steps ty = some (parts ty)) ∧
      table.Flattens parts := by
  choose parts hparts using components_eventually (unfolds_wellFounded hacyclic) []
  have hsame : ∀ {ty list}, (∀ᶠ steps in atTop, components table [] steps ty = some list) →
      parts ty = list := by
    intro ty list hlist
    obtain ⟨steps, hfound, hlist⟩ := ((hparts ty).and hlist).exists
    exact Option.some.inj (hfound.symm.trans hlist)
  have hmembers : ∀ members : List Ty, ∀ᶠ steps in atTop,
      members.mapM (components table [] steps) = some (members.map parts) := by
    intro members
    filter_upwards [eventually_forall_mem fun member (_ : member ∈ members) => hparts member]
      with steps hsteps using mapM_eq_some hsteps
  refine ⟨parts, hparts, fun members => ?union, fun members => ?intersection,
    fun ty body habbreviates => ?abbreviation, fun ty hform hnone => ?other⟩
  case union | intersection =>
    refine hsame (eventually_of_succ ?_)
    filter_upwards [hmembers members] with steps hlists
    show (members.mapM (components table [] steps)).map List.flatten = _
    rw [hlists, Option.map_some, List.flatMap_def]
  case abbreviation =>
    obtain ⟨id, hbody⟩ := abbreviates_iff.mp habbreviates
    refine hsame (eventually_of_succ ?_)
    filter_upwards [eventually_succ (hparts body)] with steps hfound
    rw [← hfound]
    simp only [components, followAliases_aliasBody? hacyclic hbody]
  case other =>
    have hself : followAliases table [] ty = ty := by
      refine followAliases_of_none (Option.eq_none_iff_forall_ne_some.mpr ?_)
      rintro ⟨id, body⟩ hbody
      exact hnone body (abbreviates_iff.mpr ⟨id, hbody⟩)
    refine hsame (eventually_of_succ (.of_forall fun steps => ?_))
    simp only [components, hself]
    cases ty with
    | union members => exact absurd rfl (hform members).1
    | intersection members => exact absurd rfl (hform members).2
    | _ => rfl

end SymbolTable

/-! ## Merging by keys -/

namespace DistinctTypes

variable {key : Ty → String} {tys : List Ty} {d : DistinctTypes}

/-- Types added one after another, each under its key. -/
def collect (key : Ty → String) (d : DistinctTypes) (tys : List Ty) : DistinctTypes :=
  tys.foldl (fun d ty => d.insert (key ty) ty) d

lemma collect_flatMap (key : Ty → String) (parts : Ty → List Ty) (d : DistinctTypes)
    (members : List Ty) : d.collect key (members.flatMap parts) =
      members.foldl (fun d member => d.collect key (parts member)) d :=
  List.foldl_flatMap ..

/-- **What adding types one after another comes to.** -/
structure Collected (key : Ty → String) (tys : List Ty) (d : DistinctTypes) : Prop where
  entries : ∀ entry ∈ d.entries, entry.1 = key entry.2 ∧ entry.2 ∈ tys
  nodup : d.keys.Nodup
  /-- Keys stay in the order in which they came first. -/
  first : ∀ p, d.keys.find? p = (tys.map key).find? p

namespace Collected

lemma nil : Collected key [] {} :=
  ⟨by simp, List.nodup_nil, fun _ => rfl⟩

lemma mem_keys (h : Collected key tys d) {text : String} :
    text ∈ d.keys ↔ text ∈ tys.map key := by
  have hmem : ∀ texts : List String, text ∈ texts ↔ (texts.find? (· == text)).isSome := by
    simp [List.find?_isSome]
  rw [hmem, hmem, h.first]

lemma keys_eq (h : Collected key tys d) : d.types.map key = d.keys := by
  rw [types, keys, List.map_map]
  exact List.map_congr_left fun entry hentry => (h.entries entry hentry).1.symm

lemma mem_of_mem_types (h : Collected key tys d) {ty : Ty} (hty : ty ∈ d.types) : ty ∈ tys := by
  obtain ⟨entry, hentry, rfl⟩ := List.mem_map.mp hty
  exact (h.entries entry hentry).2

/-- One more type. -/
lemma insert (h : Collected key tys d) (ty : Ty) :
    Collected key (tys ++ [ty]) (d.insert (key ty) ty) := by
  have hentries : ∀ entry ∈ d.entries, entry.1 = key entry.2 ∧ entry.2 ∈ tys ++ [ty] :=
    fun entry hentry => (h.entries entry hentry).imp_right (List.mem_append_left _)
  unfold DistinctTypes.insert
  split_ifs with hkey
  · refine ⟨hentries, h.nodup, fun p => ?_⟩
    rw [List.map_append, List.find?_append, ← h.first]
    cases hp : p (key ty) with
    | false => simp [hp]
    | true =>
        have hfound : (d.keys.find? p).isSome := by
          rw [List.find?_isSome]
          exact ⟨key ty, by simpa using hkey, hp⟩
        rw [Option.or_of_isSome hfound]
  · have hnew : key ty ∉ d.keys := by simpa using hkey
    refine ⟨fun entry hentry => ?_, ?_, fun p => ?_⟩
    · rcases List.mem_append.mp hentry with hentry | hentry
      · exact hentries entry hentry
      · obtain rfl := List.mem_singleton.mp hentry
        exact ⟨rfl, List.mem_append_right _ List.mem_cons_self⟩
    · rw [keys, List.map_append]
      refine List.Nodup.append h.nodup (List.nodup_singleton _) fun text hmem hsame => ?_
      obtain rfl := List.mem_singleton.mp hsame
      exact hnew hmem
    · rw [keys, List.map_append, List.map_append, List.find?_append, List.find?_append]
      exact congrArg (Option.or · _) (h.first p)

lemma collect : ∀ (more : List Ty) {tys : List Ty} {d : DistinctTypes}, Collected key tys d →
    Collected key (tys ++ more) (d.collect key more)
  | [], tys, d, h => by rwa [List.append_nil]
  | ty :: more, tys, d, h => by
      have hrest := collect more (h.insert ty)
      rwa [List.append_assoc] at hrest

lemma ofList (key : Ty → String) (tys : List Ty) :
    Collected key tys (DistinctTypes.collect key {} tys) :=
  nil.collect tys

end Collected

end DistinctTypes

/-! ## The key that is shown -/

/-- Whether a key says what type it is: not that there is no value, or that nothing is known. -/
def isConcreteKey (key : String) : Bool :=
  key != untypedText && key != absentText && key != nullText

/-- The keys of types that say what type they are. -/
def concreteKeys (key : Ty → String) (tys : List Ty) : List String :=
  (tys.map key).filter isConcreteKey

section

variable {key : Ty → String} {tys more : List Ty}

lemma concreteKeys_append :
    concreteKeys key (tys ++ more) = concreteKeys key tys ++ concreteKeys key more := by
  simp [concreteKeys]

lemma concreteKeys_subset (h : more ⊆ tys) : concreteKeys key more ⊆ concreteKeys key tys :=
  List.filter_subset _ (List.map_subset _ h)

lemma concreteKeys_perm (h : tys.Perm more) : (concreteKeys key tys).Perm (concreteKeys key more) :=
  (h.map key).filter _

end

namespace UnionPolicy

variable {policy : UnionPolicy}

/-- **The key that a policy makes of several**: the first, unless there are others and they make it
untyped. -/
def shownKey (policy : UnionPolicy) : List String → String
  | [] => untypedText
  | key :: rest =>
    if policy = .firstConcrete ∨ ∀ other ∈ rest, other = key then key else untypedText

/-- A single key is shown, however often it is there. -/
lemma shownKey_only {keys : List String} {key : String} (h : ∀ other, other ∈ keys ↔ other = key) :
    policy.shownKey keys = key := by
  cases keys with
  | nil => exact absurd ((h key).mpr rfl) List.not_mem_nil
  | cons first rest =>
      obtain rfl : first = key := (h first).mp List.mem_cons_self
      exact if_pos (Or.inr fun other hother => (h other).mp (List.mem_cons_of_mem _ hother))

lemma shownKey_first (h : policy = .firstConcrete) {keys : List String} {key : String}
    (hkey : keys.head? = some key) : policy.shownKey keys = key := by
  cases keys with
  | nil => cases hkey
  | cons first rest =>
      obtain rfl := Option.some.inj hkey
      exact if_pos (Or.inl h)

lemma shownKey_several (h : policy = .untyped) {keys : List String} {key other : String}
    (hkey : key ∈ keys) (hother : other ∈ keys) (hne : key ≠ other) :
    policy.shownKey keys = untypedText := by
  cases keys with
  | nil => cases hkey
  | cons first rest =>
      refine if_neg ?_
      rintro (hfirst | hsame)
      · rw [h] at hfirst
        cases hfirst
      · have hall : ∀ text ∈ first :: rest, text = first :=
          List.forall_mem_cons.mpr ⟨rfl, hsame⟩
        exact hne ((hall key hkey).trans (hall other hother).symm)

/-- Keys that were there already make no difference. -/
lemma shownKey_append {keys more : List String} (h : more ⊆ keys) :
    policy.shownKey (keys ++ more) = policy.shownKey keys := by
  cases keys with
  | nil => rw [List.subset_nil.mp h, List.append_nil]
  | cons first rest =>
      have hsame : (∀ other ∈ rest ++ more, other = first) ↔ ∀ other ∈ rest, other = first := by
        refine ⟨fun hall other hother => hall other (List.mem_append_left _ hother), ?_⟩
        intro hall
        have hkeys : ∀ other ∈ first :: rest, other = first := List.forall_mem_cons.mpr ⟨rfl, hall⟩
        exact List.forall_mem_append.mpr ⟨hall, fun other hother => hkeys other (h hother)⟩
      simp only [List.cons_append, shownKey, hsame]

/-- Where several keys make a union untyped, their order makes no difference. -/
lemma shownKey_perm (h : policy = .untyped) {keys keys' : List String} (hperm : keys.Perm keys') :
    policy.shownKey keys = policy.shownKey keys' := by
  by_cases honly : ∃ key, ∀ other, other ∈ keys ↔ other = key
  · obtain ⟨key, hkey⟩ := honly
    rw [shownKey_only hkey, shownKey_only fun other => hperm.mem_iff.symm.trans (hkey other)]
  · cases keys with
    | nil => rw [hperm.nil_eq]
    | cons first rest =>
        have hother : ∃ other ∈ first :: rest, first ≠ other := by
          by_contra hnone
          have hsame : ∀ other ∈ first :: rest, other = first := fun other hmem =>
            by_contra fun hne => hnone ⟨other, hmem, fun h => hne h.symm⟩
          exact honly ⟨first, fun other => ⟨hsame other, fun h => h ▸ List.mem_cons_self⟩⟩
        obtain ⟨other, hmem, hne⟩ := hother
        rw [shownKey_several h List.mem_cons_self hmem hne,
          shownKey_several h (hperm.subset List.mem_cons_self) (hperm.subset hmem) hne]

end UnionPolicy

/-- The key of the member that is shown is the key that the policy makes of all keys. -/
lemma DistinctTypes.Collected.shownMember {key : Ty → String} {tys : List Ty} {d : DistinctTypes}
    (h : Collected key tys d) (policy : UnionPolicy) :
    ((Interop.shownMember policy (d.types.filter fun ty => isConcreteKey (key ty))).map key).getD
      untypedText = policy.shownKey (concreteKeys key tys) := by
  have hkeys : (d.types.filter fun ty => isConcreteKey (key ty)).map key =
      d.keys.filter isConcreteKey := by
    rw [← h.keys_eq, List.filter_map]
    rfl
  have hnodup : (d.keys.filter isConcreteKey).Nodup := h.nodup.filter _
  have hmem : ∀ text, text ∈ d.keys.filter isConcreteKey ↔ text ∈ concreteKeys key tys := by
    intro text
    rw [concreteKeys, List.mem_filter, List.mem_filter, h.mem_keys]
  have hhead : (d.keys.filter isConcreteKey).head? = (concreteKeys key tys).head? := by
    rw [concreteKeys, List.head?_filter, List.head?_filter, h.first]
  rw [← hkeys] at hnodup hmem hhead
  generalize d.types.filter (fun ty => isConcreteKey (key ty)) = shown at hnodup hmem hhead
  rcases shown with _ | ⟨first, _ | ⟨second, rest⟩⟩
  · have hnone : concreteKeys key tys = [] :=
      List.eq_nil_iff_forall_not_mem.mpr fun text htext => List.not_mem_nil ((hmem text).mpr htext)
    rw [hnone]
    rfl
  · show key first = _
    refine (UnionPolicy.shownKey_only fun other => ?_).symm
    rw [← hmem, List.map_cons, List.map_nil, List.mem_singleton]
  · cases policy with
    | firstConcrete => exact (UnionPolicy.shownKey_first rfl hhead.symm).symm
    | untyped =>
        have hne : key first ≠ key second := by
          simp only [List.map_cons, List.nodup_cons, List.mem_cons, not_or] at hnodup
          exact hnodup.1.1
        refine (UnionPolicy.shownKey_several rfl ((hmem _).mp ?_) ((hmem _).mp ?_) hne).symm
        · exact List.mem_cons_self
        · exact List.mem_cons_of_mem _ List.mem_cons_self

/-! ## Unions -/

/-- **An invariant that fixes what merging reads of a session**, and does not depend on whether the
text is written at all. -/
structure Session.Fixes (base : Session) (I : Session → Prop) : Prop where
  table : ∀ s, I s → s.table = base.table
  expanding : ∀ s, I s → s.expanding = base.expanding
  policy : ∀ s, I s → s.policy = base.policy
  detach : ∀ s, I s → I s.detach
  attach : ∀ s, I s → I s.attach

/-- How a union is rendered once its members are merged. -/
def renderMerged (render : Renderer) (ty : Ty) (members : List Ty) (o : RenderOptions)
    (merged : DistinctTypes) : Work Rendered := do
  let display := { o with hideComment := true, typeArguments := none }
  let concrete ← merged.types.filterM fun member => do
    return (← Work.detached (render member display)).isConcrete
  let policy := o.policy.getD (← get).policy
  let text ← match shownMember policy concrete with
    | some member => do pure (← render member display).text
    | none => pure untypedText
  if members.length > 1 then return .annotated text (ty.text (← Work.table)) o
  else return .plain text

lemma renderUnion_eq (render : Renderer) (steps : Nat) (ty : Ty) (members : List Ty)
    (o : RenderOptions) : renderUnion render steps ty members o =
      DistinctTypes.ofTypes render steps members >>= renderMerged render ty members o :=
  rfl

namespace Session

variable {base : Session} {rendered : Ty → Rendered} {parts : Ty → List Ty}

lemma Like.fixes (base : Session) : base.Fixes base.Like :=
  ⟨fun _ hs => hs.table, fun _ hs => hs.expanding, fun _ hs => hs.policy, fun _ hs => { hs with },
    fun _ hs => { hs with }⟩

section

variable {I : Session → Prop} (hI : base.Fixes I) {depth : Nat}
include hI

/-- Text that is not written is the text that is. -/
lemma Fixes.detached {α : Type} {w : Work α} {a : α} (hw : w.Gives I a) :
    (Work.detached w).Gives I a :=
  .within hI.detach hI.attach hw

/-- A set of types with the keys of the types that others count as. -/
lemma gives_ofTypes (key : Ty → String) {tys : List Ty}
    (hfound : ∀ ty ∈ tys, components base.table base.expanding depth ty = some (parts ty))
    (hkey : ∀ part ∈ tys.flatMap parts, ((renderWithin depth).key part).Gives I (key part)) :
    (DistinctTypes.ofTypes (renderWithin depth) depth tys).Gives I
      (DistinctTypes.collect key {} (tys.flatMap parts)) := by
  rw [DistinctTypes.collect_flatMap]
  refine .foldlM _ fun d ty hty => Yields.get_bind fun s hs => ?_
  rw [hI.table s hs, hI.expanding s hs, hfound ty hty]
  refine Gives.foldlM d fun d part hpart => ?_
  exact .bind (hkey part (List.mem_flatMap.mpr ⟨ty, hty, hpart⟩)) (.pure _)

/-- **A union is rendered for keys as one of the types that its members were merged into**: the one
that the policy shows of those that say what type they are. -/
lemma gives_renderMerged {merged : DistinctTypes}
    (hrendered : ∀ part ∈ merged.types, (renderWithin depth part .key).Gives I (rendered part))
    (ty : Ty) (members : List Ty) :
    (renderMerged (renderWithin depth) ty members .key merged).Gives I
      (.plain (((shownMember base.policy (merged.types.filter fun member =>
        isConcreteKey (rendered member).text)).map fun member => (rendered member).text).getD
          untypedText)) := by
  have hconcrete : ∀ member ∈ merged.types, (do
      return (← Work.detached (renderWithin depth member .key)).isConcrete : Work Bool).Gives I
        (isConcreteKey (rendered member).text) := fun member hmember =>
    .bind (hI.detached (hrendered member hmember)) (.pure _)
  have hend : ∀ text, (if members.length > 1 then do
      return Rendered.annotated text (ty.text (← Work.table)) .key
    else return Rendered.plain text : Work Rendered).Gives I (.plain text) := by
    intro text
    split_ifs
    · exact Yields.table_bind fun _ _ => .pure rfl
    · exact .pure _
  refine .bind (.filterM hconcrete) (Yields.get_bind fun s hs => ?_)
  rw [← hI.policy s hs]
  dsimp only
  rw [show RenderOptions.key.policy.getD s.policy = s.policy from rfl]
  cases hshown : shownMember s.policy
    (merged.types.filter fun member => isConcreteKey (rendered member).text) with
  | none => exact Gives.bind (.pure _) (hend _)
  | some member =>
      have hmember := (List.mem_filter.mp (mem_of_shownMember hshown)).1
      exact Gives.bind (hrendered member hmember) (.bind (.pure _) (hend _))

end

/-- **What a union is rendered as for keys**: the key that the policy makes of those of the types
that it counts as. -/
theorem renders_union (hrendered : ∀ ty, base.Renders ty .key (rendered ty))
    (hparts : ∀ ty, ∀ᶠ steps in atTop,
      components base.table base.expanding steps ty = some (parts ty)) (members : List Ty) :
    ∀ᶠ depth in atTop, ∀ ty, (renderUnion (renderWithin depth) depth ty members .key).Gives
      base.Like (.plain (base.policy.shownKey
        (concreteKeys (fun ty => (rendered ty).text) (members.flatMap parts)))) := by
  filter_upwards [eventually_forall_mem fun member (_ : member ∈ members) => hparts member,
    eventually_forall_mem fun part (_ : part ∈ members.flatMap parts) => hrendered part]
    with depth hfound hdepth ty
  have hcollected := DistinctTypes.Collected.ofList (fun ty => (rendered ty).text)
    (members.flatMap parts)
  have hmerged := gives_ofTypes (Like.fixes base) (fun ty => (rendered ty).text) hfound
    fun part hpart => .bind ((Like.fixes base).detached (hdepth part hpart)) (.pure _)
  generalize DistinctTypes.collect _ _ _ = merged at hcollected hmerged
  rw [← hcollected.shownMember]
  rw [renderUnion_eq]
  exact .bind hmerged (gives_renderMerged (Like.fixes base)
    (fun member hmember => hdepth member (hcollected.mem_of_mem_types hmember)) ty members)

end Session

/-- **Unions obey the laws of sets of keys.**  Where aliases are not recursive, diagnostics are
collected, all names are given and no alias is being expanded, every type has one key: it is found
with every bound that is large enough, and with the bound of the program unless that is exhausted.

The key of a union is that of the intersection of its members.  It stays the same when a member is
there once more, when a union or intersection among the members is replaced by its own members, and
when a member is abbreviated; where several keys make a union untyped, also when the members are put
in another order.  Of the types that the members count as, it is the key of those that say what type
they are if they have only one, and the first of their keys where the policy is to show it;
otherwise the union is untyped. -/
theorem union_keys (s : Session) (hacyclic : ∀ id, ¬ TransGen s.table.Uses id id)
    (hbatch : s.log.mode = .batch) (hnamed : s.Named) (hexpanding : s.expanding = []) :
    ∃ (key : Ty → String) (parts : Ty → List Ty),
      (∀ ty, (∀ᶠ depth in atTop, (((renderWithin depth).key ty).exec s).1 = .ok (key ty)) ∧
        (((typeKey ty).exec s).1 = .ok (key ty) ∨ ((typeKey ty).exec s).1 = .error .exhausted)) ∧
      s.table.Flattens parts ∧
      ∀ members : List Ty,
        key (.intersection members) = key (.union members) ∧
        (∀ member ∈ members, key (.union (members ++ [member])) = key (.union members)) ∧
        (∀ before inner after, members = before ++ .union inner :: after ∨
            members = before ++ .intersection inner :: after →
          key (.union (before ++ inner ++ after)) = key (.union members)) ∧
        (∀ before member after short, members = before ++ member :: after →
            s.table.Abbreviates short member →
          key (.union (before ++ short :: after)) = key (.union members)) ∧
        (s.policy = .untyped → ∀ others, others.Perm members →
          key (.union others) = key (.union members)) ∧
        (∀ text, (∀ other, other ∈ concreteKeys key (members.flatMap parts) ↔ other = text) →
          key (.union members) = text) ∧
        (s.policy = .firstConcrete →
          ∀ text, (concreteKeys key (members.flatMap parts)).head? = some text →
            key (.union members) = text) ∧
        (concreteKeys key (members.flatMap parts) = [] ∨ (s.policy = .untyped ∧
            ∃ text ∈ concreteKeys key (members.flatMap parts),
              ∃ other ∈ concreteKeys key (members.flatMap parts), text ≠ other) →
          key (.union members) = "dynamic") := by
  choose rendered hrendered using fun ty => s.exists_renders hacyclic hnamed hbatch ty .key
  obtain ⟨parts, hparts, hflattens⟩ := SymbolTable.exists_flattens hacyclic
  set key : Ty → String := fun ty => (rendered ty).text with hkey
  have hshown : ∀ members ty, (∀ depth, renderWithin (depth + 1) ty .key =
      renderUnion (renderWithin depth) depth ty members .key) →
        key ty = s.policy.shownKey (concreteKeys key (members.flatMap parts)) := by
    intro members ty hform
    suffices hplain : s.Renders ty .key
        (.plain (s.policy.shownKey (concreteKeys key (members.flatMap parts)))) from
      congrArg Rendered.text ((hrendered ty).unique hplain)
    refine eventually_of_succ ?_
    filter_upwards [Session.renders_union hrendered (hexpanding ▸ hparts) members] with depth hdepth
    rw [hform]
    exact hdepth ty
  have hunion : ∀ members, key (.union members) =
      s.policy.shownKey (concreteKeys key (members.flatMap parts)) :=
    fun members => hshown members _ fun _ => rfl
  refine ⟨key, parts, fun ty => ⟨?found, (hrendered ty).typeKey⟩, hflattens, fun members =>
    ⟨?intersection, ?again, ?inner, ?short, ?order, ?only, ?first, ?otherwise⟩⟩
  case found =>
    filter_upwards [(hrendered ty).key] with depth hdepth using hdepth.exec (.refl s)
  case intersection =>
    rw [hunion]
    exact hshown members _ fun _ => rfl
  case again =>
    intro member hmember
    rw [hunion, hunion, List.flatMap_append, concreteKeys_append]
    refine UnionPolicy.shownKey_append (concreteKeys_subset ?_)
    rw [List.flatMap_singleton]
    exact fun part hpart => List.mem_flatMap.mpr ⟨member, hmember, hpart⟩
  case inner =>
    rintro before inner after (rfl | rfl)
    · rw [hunion, hunion]
      simp only [List.flatMap_append, List.flatMap_cons, hflattens.union, List.append_assoc]
    · rw [hunion, hunion]
      simp only [List.flatMap_append, List.flatMap_cons, hflattens.intersection, List.append_assoc]
  case short =>
    rintro before member after short rfl hshort
    rw [hunion, hunion]
    simp only [List.flatMap_append, List.flatMap_cons, hflattens.abbreviation short member hshort]
  case order =>
    intro hpolicy others hperm
    rw [hunion, hunion]
    exact UnionPolicy.shownKey_perm hpolicy (concreteKeys_perm (hperm.flatMap_right parts))
  case only =>
    intro text htext
    rw [hunion]
    exact UnionPolicy.shownKey_only htext
  case first =>
    intro hpolicy text htext
    rw [hunion]
    exact UnionPolicy.shownKey_first hpolicy htext
  case otherwise =>
    rintro (hnone | ⟨hpolicy, text, htext, other, hother, hne⟩)
    · rw [hunion, hnone]
      rfl
    · rw [hunion]
      exact UnionPolicy.shownKey_several hpolicy htext hother hne

/-- A session in which an interface has its name and an alias stands for it. -/
def boxSession : Session where
  table := ⟨#[
    { name := "Box", kind := .interface, file := 0, path := ⟨["shapes", "Box"], .type⟩ },
    { name := "Crate", kind := .alias, file := 0, path := ⟨["shapes", "Crate"], .type⟩,
      aliased := some (.nominal 0 []) }]⟩
  policy := .firstConcrete
  log := { mode := .batch }
  registry := ⟨[(⟨["shapes", "Box"], .type⟩, ⟨"Box", 0⟩)]⟩
  libraries := #[(Library.withCoreNames 0 "shapes").insert "Box"]
  assignments := [(0, 0)]

/-- The interface is not defined by another type. -/
lemma boxSession_acyclic (id : Nat) : ¬ TransGen boxSession.table.Uses id id := by
  refine SymbolTable.acyclic_of_lt (fun {id other} huses => ?_) id
  obtain ⟨symbol, definition, hget, hkind, hdefinition, hother⟩ := huses
  rcases id with _ | _ | id
  · obtain rfl := Option.some.inj hget
    cases hkind
  · obtain rfl := Option.some.inj hget
    obtain rfl := Option.some.inj hdefinition
    obtain rfl := List.mem_singleton.mp hother
    exact Nat.one_pos
  · cases hget

lemma boxSession_named : boxSession.Named := by
  have hbox : ∀ id symbol, boxSession.table.get? id = some symbol →
      symbol.kind.isEmitted = true → boxSession.table.get? 0 = some symbol := by
    intro id symbol hget hkind
    rcases id with _ | _ | id
    · exact hget
    · obtain rfl := Option.some.inj hget
      cases hkind
    · cases hget
  constructor
  · intro id symbol hget hkind _
    obtain rfl := Option.some.inj (hbox id symbol hget hkind)
    exact ⟨0, rfl⟩
  · intro id symbol library hget hkind _ _ hfile
    obtain rfl := Option.some.inj (hbox id symbol hget hkind)
    obtain rfl := Option.some.inj hfile
    exact ⟨⟨_, rfl⟩, _, rfl⟩

/-- Among the members of a union the alias counts as the interface. -/
theorem union_keys_alias : ∃ key : Ty → String,
    key (.union [.alias 1, .primitive .string]) = key (.union [.nominal 0 [], .primitive .string]) ∧
      key (.union [.nominal 0 [], .primitive .string]) = "Box" := by
  obtain ⟨key, parts, hkey, -, hlaws⟩ := union_keys boxSession boxSession_acyclic rfl boxSession_named rfl
  obtain ⟨-, -, -, hshort, -⟩ := hlaws [.nominal 0 [], .primitive .string]
  refine ⟨key, hshort [] _ _ (.alias 1) rfl ⟨1, _, Or.inl rfl, rfl, rfl, rfl, rfl⟩, ?_⟩
  have hrun : ((typeKey (.union [.nominal 0 [], .primitive .string])).exec boxSession).1 =
      .ok "Box" := rfl
  rcases (hkey (.union [.nominal 0 [], .primitive .string])).2 with hok | hexhausted
  · exact Except.ok.inj (hok.symm.trans hrun)
  · cases hexhausted.symm.trans hrun

end Interop
