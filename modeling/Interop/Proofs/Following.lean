import Interop.Rendering.Distinct
import Mathlib.Data.List.Nodup
import Mathlib.Data.List.Perm.Subperm
import Mathlib.Tactic.Common

/-!
# Looking through aliases

Types are compared by what they stand for: aliases without parameters are looked through, and unions
and intersections count as their members.  Both come to an end.  What an alias is looked through to
stays the same when it is looked through once more, also where a chain of aliases closes, and so a
component has no components but itself.

* `Follows` — what looking through aliases arrives at, without a bound on the steps.
* **`followAliases_idem`** — what is arrived at stays the same.
* **`isComponent_of_components`** — the components of components are themselves.
-/

namespace Interop

variable {table : SymbolTable} {expanding seen : List Nat}

/-! ## One alias -/

/-- The aliases that are looked through: those without parameters that are not being expanded. -/
lemma aliasBody?_eq_some {ty body : Ty} {id : Nat} :
    aliasBody? table expanding ty = some (id, body) ↔
      (ty = .alias id ∨ ty = .nominal id []) ∧ id ∉ expanding ∧
        ∃ symbol, table.get? id = some symbol ∧ symbol.kind = .alias ∧ symbol.typeParams = [] ∧
          symbol.aliased = some body := by
  have halias : ∀ other, aliasBody? table expanding (.alias other) = some (id, body) ↔
      other = id ∧ id ∉ expanding ∧ ∃ symbol, table.get? id = some symbol ∧
        symbol.kind = .alias ∧ symbol.typeParams = [] ∧ symbol.aliased = some body := by
    intro other
    simp only [aliasBody?]
    constructor
    · intro h
      cases hget : table.get? other with
      | none => simp [hget] at h
      | some symbol =>
          simp only [hget] at h
          split_ifs at h with hif
          obtain ⟨body', hbody, he⟩ := Option.map_eq_some_iff.mp h
          obtain ⟨rfl, rfl⟩ := Prod.mk.inj he
          simp only [Bool.and_eq_true, beq_iff_eq, List.isEmpty_iff, Bool.not_eq_true',
            List.contains_eq_mem, decide_eq_false_iff_not] at hif
          exact ⟨rfl, hif.2, symbol, hget, hif.1.1, hif.1.2, hbody⟩
    · rintro ⟨rfl, hid, symbol, hget, hkind, hparams, hbody⟩
      simp [hget, hkind, hparams, hid, hbody]
  cases ty with
  | «alias» other =>
      rw [halias]
      simp
  | nominal other args =>
      cases args with
      | nil =>
          rw [show aliasBody? table expanding (.nominal other []) =
            aliasBody? table expanding (.alias other) from rfl, halias]
          simp
      | cons arg args => simp [aliasBody?]
  | _ => simp [aliasBody?]

/-- What an alias stands for depends on its number alone. -/
lemma aliasBody?_unique {ty ty' body body' : Ty} {id : Nat}
    (h : aliasBody? table expanding ty = some (id, body))
    (h' : aliasBody? table expanding ty' = some (id, body')) : body = body' := by
  obtain ⟨-, -, symbol, hget, -, -, hbody⟩ := aliasBody?_eq_some.mp h
  obtain ⟨-, -, symbol', hget', -, -, hbody'⟩ := aliasBody?_eq_some.mp h'
  obtain rfl := Option.some.inj (hget.symm.trans hget')
  exact Option.some.inj (hbody.symm.trans hbody')

/-! ## Chains of aliases -/

/-- What looking through aliases arrives at: a type that is no such alias, or the first alias on the
way that was seen before. -/
inductive Follows (table : SymbolTable) (expanding : List Nat) : List Nat → Ty → Ty → Prop
  | stop {seen : List Nat} {ty : Ty} : aliasBody? table expanding ty = none →
      Follows table expanding seen ty ty
  | closed {seen : List Nat} {ty body : Ty} {id : Nat} :
      aliasBody? table expanding ty = some (id, body) → id ∈ seen →
        Follows table expanding seen ty ty
  | step {seen : List Nat} {ty body last : Ty} {id : Nat} :
      aliasBody? table expanding ty = some (id, body) → id ∉ seen →
        Follows table expanding (id :: seen) body last → Follows table expanding seen ty last

/-- How a type was arrived at through the aliases that were seen. -/
inductive Trail (table : SymbolTable) (expanding : List Nat) : List Nat → Ty → Prop
  | start {ty : Ty} : Trail table expanding [] ty
  | step {seen : List Nat} {ty body : Ty} {id : Nat} :
      aliasBody? table expanding ty = some (id, body) → id ∉ seen →
        Trail table expanding seen ty → Trail table expanding (id :: seen) body

namespace Follows

lemma unique {ty last last' : Ty} (h : Follows table expanding seen ty last)
    (h' : Follows table expanding seen ty last') : last = last' := by
  induction h with
  | stop hnone =>
      cases h' with
      | stop | closed => rfl
      | step hsome => simp [hnone] at hsome
  | closed hsome hid =>
      cases h' with
      | stop | closed => rfl
      | step hsome' hid' =>
          obtain ⟨rfl, -⟩ := Prod.mk.inj (Option.some.inj (hsome.symm.trans hsome'))
          exact absurd hid hid'
  | step hsome hid _ ih =>
      cases h' with
      | stop hnone => simp [hnone] at hsome
      | closed hsome' hid' =>
          obtain ⟨rfl, -⟩ := Prod.mk.inj (Option.some.inj (hsome.symm.trans hsome'))
          exact absurd hid' hid
      | step hsome' hid' hrest =>
          obtain ⟨rfl, rfl⟩ := Prod.mk.inj (Option.some.inj (hsome.symm.trans hsome'))
          exact ih hrest

/-- Going back along a trail to where an alias was seen. -/
lemma back {id : Nat} {earlier : List Nat} : ∀ {later : List Nat} {ty last : Ty},
    Trail table expanding (later ++ id :: earlier) ty →
      Follows table expanding (later ++ [id]) ty last →
        ∃ from' body, aliasBody? table expanding from' = some (id, body) ∧
          Follows table expanding [id] body last
  | [], _, _, htrail, h => by
      cases htrail with
      | step hsome => exact ⟨_, _, hsome, h⟩
  | other :: later, _, _, htrail, h => by
      cases htrail with
      | step hsome hid htrail =>
          refine back htrail (.step hsome (fun hm => hid ?_) h)
          rcases List.mem_append.mp hm with hm | hm
          · exact List.mem_append_left _ hm
          · obtain rfl := List.mem_singleton.mp hm
            exact List.mem_append_right _ List.mem_cons_self

/-- **What is arrived at stays the same.**  Where a chain closes, it leads from its last alias back to
that alias. -/
lemma again {ty last : Ty} (h : Follows table expanding seen ty last)
    (htrail : Trail table expanding seen ty) : Follows table expanding [] last last := by
  induction h with
  | stop hnone => exact .stop hnone
  | step hsome hid _ ih => exact ih (.step hsome hid htrail)
  | closed hsome hid =>
      obtain ⟨later, earlier, rfl⟩ := List.append_of_mem hid
      obtain ⟨other, body, hother, hback⟩ := back htrail (.closed hsome (by simp))
      obtain rfl := aliasBody?_unique hsome hother
      exact .step hsome (by simp) hback

end Follows

/-- The bound on the steps is never met: every alias on the way is another one of the table. -/
lemma follows_followFrom : ∀ (steps : Nat) (seen : List Nat) (ty : Ty), seen.Nodup →
    (∀ id ∈ seen, id < table.size) → table.size < steps + seen.length →
      Follows table expanding seen ty (followFrom table expanding steps seen ty)
  | 0, seen, _, hnodup, hbound, hsteps => by
      have hlength := (List.subperm_of_subset hnodup fun id hid =>
        List.mem_range.mpr (hbound id hid)).length_le
      rw [List.length_range] at hlength
      omega
  | steps + 1, seen, ty, hnodup, hbound, hsteps => by
      unfold followFrom
      cases hbody : aliasBody? table expanding ty with
      | none => exact .stop hbody
      | some next =>
          obtain ⟨id, body⟩ := next
          obtain ⟨-, -, symbol, hget, -⟩ := aliasBody?_eq_some.mp hbody
          have hid : id < table.size := (Array.getElem?_eq_some_iff.mp hget).1
          simp only [List.contains_iff_mem]
          split_ifs with hseen
          · exact .closed hbody hseen
          · refine .step hbody hseen (follows_followFrom steps (id :: seen) body
              (List.nodup_cons.mpr ⟨hseen, hnodup⟩) ?_ ?_)
            · exact List.forall_mem_cons.mpr ⟨hid, hbound⟩
            · rw [List.length_cons]
              omega

/-- Looking through aliases arrives where their chain leads. -/
lemma follows_followAliases (table : SymbolTable) (expanding : List Nat) (ty : Ty) :
    Follows table expanding [] ty (followAliases table expanding ty) :=
  follows_followFrom _ [] ty List.nodup_nil (by simp) (by simp)

/-- **Looking through aliases once more** changes nothing. -/
theorem followAliases_idem (table : SymbolTable) (expanding : List Nat) (ty : Ty) :
    followAliases table expanding (followAliases table expanding ty) =
      followAliases table expanding ty :=
  (follows_followAliases table expanding _).unique
    ((follows_followAliases table expanding ty).again .start)

/-! ## Components -/

section

variable {steps : Nat} {ty : Ty} {parts : List Ty}

/-- A type that counts as itself. -/
def Ty.IsComponent (table : SymbolTable) (expanding : List Nat) (ty : Ty) : Prop :=
  ∀ steps, components table expanding (steps + 1) ty = some [ty]

/-- What counts as several types counts as those of its members. -/
lemma components_cases (h : components table expanding (steps + 1) ty = some parts) :
    (∃ members lists, (followAliases table expanding ty = .union members ∨
        followAliases table expanding ty = .intersection members) ∧
      members.mapM (components table expanding steps) = some lists ∧ parts = lists.flatten) ∨
    ((followAliases table expanding ty).IsComponent table expanding ∧
      parts = [followAliases table expanding ty]) := by
  have hidem := followAliases_idem table expanding ty
  simp only [components] at h
  generalize followAliases table expanding ty = followed at h hidem
  have hmembers : ∀ {members : List Ty}, (members.mapM (components table expanding steps)).map
      List.flatten = some parts → ∃ lists,
        members.mapM (components table expanding steps) = some lists ∧ parts = lists.flatten := by
    intro members hparts
    obtain ⟨lists, hlists, rfl⟩ := Option.map_eq_some_iff.mp hparts
    exact ⟨lists, hlists, rfl⟩
  cases followed with
  | union members =>
      obtain ⟨lists, hlists⟩ := hmembers h
      exact Or.inl ⟨members, lists, Or.inl rfl, hlists⟩
  | intersection members =>
      obtain ⟨lists, hlists⟩ := hmembers h
      exact Or.inl ⟨members, lists, Or.inr rfl, hlists⟩
  | _ =>
      refine Or.inr ⟨fun more => ?_, (Option.some.inj h).symm⟩
      simp only [components, hidem]

end

lemma forall_mem_flatten_mapM {α β : Type} {f : α → Option (List β)} {P : β → Prop} :
    ∀ {xs : List α} {lists : List (List β)}, xs.mapM f = some lists →
      (∀ x ∈ xs, ∀ ys, f x = some ys → ∀ y ∈ ys, P y) → ∀ y ∈ lists.flatten, P y
  | [], lists, h, _ => by
      rw [List.mapM_nil] at h
      obtain rfl := Option.some.inj h
      simp
  | x :: xs, lists, h, hP => by
      rw [List.mapM_cons] at h
      obtain ⟨ys, hys, h⟩ := Option.bind_eq_some_iff.mp h
      obtain ⟨rest, hrest, h⟩ := Option.bind_eq_some_iff.mp h
      obtain rfl := Option.some.inj h
      rw [List.flatten_cons]
      exact List.forall_mem_append.mpr ⟨hP x List.mem_cons_self ys hys,
        forall_mem_flatten_mapM hrest fun z hz => hP z (List.mem_cons_of_mem _ hz)⟩

/-- What holds of all a type is looked through to. -/
lemma Follows.keeps {P : Ty → Prop}
    (hbody : ∀ ty id body, aliasBody? table expanding ty = some (id, body) → P ty → P body)
    {ty last : Ty} (h : Follows table expanding seen ty last) (hty : P ty) : P last := by
  induction h with
  | stop => exact hty
  | closed => exact hty
  | step hsome _ _ ih => exact ih (hbody _ _ _ hsome hty)

/-- **What aliases and unions pass on to their parts**, a type passes on to its components. -/
lemma components_keep {P : Ty → Prop}
    (hbody : ∀ ty id body, aliasBody? table expanding ty = some (id, body) → P ty → P body)
    (hunion : ∀ members, P (.union members) → ∀ member ∈ members, P member)
    (hintersection : ∀ members, P (.intersection members) → ∀ member ∈ members, P member) :
    ∀ {steps : Nat} {ty : Ty} {parts : List Ty}, components table expanding steps ty = some parts →
      P ty → ∀ part ∈ parts, P part
  | 0, _, _, h, _ => by cases h
  | steps + 1, ty, parts, h, hty => by
      have hfollowed := (follows_followAliases table expanding ty).keeps hbody hty
      rcases components_cases h with ⟨members, lists, hform, hlists, rfl⟩ | ⟨-, rfl⟩
      · refine forall_mem_flatten_mapM hlists fun member hmember ys hys => ?_
        refine components_keep hbody hunion hintersection hys ?_
        rcases hform with hform | hform
        · exact hunion members (hform ▸ hfollowed) member hmember
        · exact hintersection members (hform ▸ hfollowed) member hmember
      · simpa using hfollowed

/-! ### While other aliases are being expanded -/

section

variable {other : List Nat} {P : Ty → Prop}
  (hsame : ∀ ty, P ty → aliasBody? table expanding ty = aliasBody? table other ty)
  (hbody : ∀ ty id body, aliasBody? table expanding ty = some (id, body) → P ty → P body)
include hsame hbody

lemma Follows.congr {ty last : Ty} (h : Follows table expanding seen ty last) (hty : P ty) :
    Follows table other seen ty last := by
  induction h with
  | stop hnone => exact .stop (hsame _ hty ▸ hnone)
  | closed hsome hid => exact .closed (hsame _ hty ▸ hsome) hid
  | step hsome hid _ ih => exact .step (hsame _ hty ▸ hsome) hid (ih (hbody _ _ _ hsome hty))

lemma followAliases_congr {ty : Ty} (hty : P ty) :
    followAliases table expanding ty = followAliases table other ty :=
  ((follows_followAliases table expanding ty).congr hsame hbody hty).unique
    (follows_followAliases table other ty)

/-- **What a type counts as** is the same where the same aliases in it are looked through. -/
lemma components_congr (hunion : ∀ members, P (.union members) → ∀ member ∈ members, P member)
    (hintersection : ∀ members, P (.intersection members) → ∀ member ∈ members, P member) :
    ∀ (steps : Nat) {ty : Ty}, P ty →
      components table expanding steps ty = components table other steps ty
  | 0, _, _ => rfl
  | steps + 1, ty, hty => by
      have hmapM : ∀ members : List Ty, (∀ member ∈ members, P member) →
          members.mapM (components table expanding steps) =
            members.mapM (components table other steps) := by
        intro members
        induction members with
        | nil => exact fun _ => rfl
        | cons member rest ih =>
            intro hmembers
            rw [List.mapM_cons, List.mapM_cons,
              components_congr hunion hintersection steps (hmembers member List.mem_cons_self),
              ih fun other hother => hmembers other (List.mem_cons_of_mem _ hother)]
      have hfollowed := (follows_followAliases table expanding ty).keeps hbody hty
      rw [followAliases_congr hsame hbody hty] at hfollowed
      simp only [components, followAliases_congr hsame hbody hty]
      generalize followAliases table other ty = followed at hfollowed ⊢
      cases followed with
      | union members =>
          exact congrArg (Option.map List.flatten) (hmapM members (hunion members hfollowed))
      | intersection members =>
          exact congrArg (Option.map List.flatten) (hmapM members (hintersection members hfollowed))
      | _ => rfl

end

/-- **Components are components.** -/
lemma isComponent_of_components : ∀ {steps : Nat} {ty : Ty} {parts : List Ty},
    components table expanding steps ty = some parts →
      ∀ part ∈ parts, part.IsComponent table expanding
  | 0, _, _, h => by cases h
  | steps + 1, ty, parts, h => by
      rcases components_cases h with ⟨members, lists, -, hlists, rfl⟩ | ⟨hpart, rfl⟩
      · exact forall_mem_flatten_mapM hlists fun _ _ _ hys => isComponent_of_components hys
      · simpa using hpart

lemma mapM_eq_some {α β : Type} {f : α → Option β} {g : α → β} {xs : List α}
    (h : ∀ x ∈ xs, f x = some (g x)) : xs.mapM f = some (xs.map g) := by
  induction xs with
  | nil => rfl
  | cons x xs ih =>
      rw [List.mapM_cons, h x List.mem_cons_self, ih fun y hy => h y (List.mem_cons_of_mem _ hy)]
      rfl

/-- A union of components has them as its components. -/
lemma components_ofUnion {tys : List Ty} {ty : Ty} (hty : Ty.ofUnion tys = some ty)
    (h : ∀ part ∈ tys, part.IsComponent table expanding) (steps : Nat) :
    components table expanding (steps + 2) ty = some tys := by
  have hunion : components table expanding (steps + 2) (.union tys) = some tys := by
    show (tys.mapM (components table expanding (steps + 1))).map List.flatten = some tys
    rw [mapM_eq_some fun part hpart => h part hpart steps, Option.map_some, ← List.flatMap_def,
      List.flatMap_singleton']
  rcases tys with _ | ⟨first, _ | ⟨second, rest⟩⟩
  · cases hty
  · obtain rfl := Option.some.inj hty
    exact h _ List.mem_cons_self (steps + 1)
  · obtain rfl := Option.some.inj hty
    exact hunion

end Interop
