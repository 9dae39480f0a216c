import Interop.Proofs.Phrases.Edges
import Interop.Proofs.Unfolding
import Interop.Proofs.Yields
import Mathlib.Order.Filter.AtTopBot.Basic

/-!
# Rendering comes to an end

The bound on the depth of rendering is only there because aliases may be recursive.  Where unfolding
comes to an end so does rendering: with enough steps it is never exhausted, in no session with the
same aliases being expanded.  How many steps are enough does not depend on the session, since there
are only so many types that a list of types can be merged into.

* `Session.Steady` — an invariant under which names and reports fail only as allowed.
* **`components_eventually`** — what a type counts as is found with enough steps.
* **`renderWithin_finishes`** — with enough steps, rendering fails only where names and reports do.
-/

namespace Interop

open Filter Relation Work

/-! ## Enough steps -/

lemma eventually_forall_mem {α : Type} {P : Nat → α → Prop} {xs : List α}
    (h : ∀ x ∈ xs, ∀ᶠ n in atTop, P n x) : ∀ᶠ n in atTop, ∀ x ∈ xs, P n x := by
  induction xs with
  | nil => simp
  | cons x xs ih =>
      have hrest := ih fun y hy => h y (List.mem_cons_of_mem _ hy)
      filter_upwards [h x List.mem_cons_self, hrest] with n hx hxs
      exact List.forall_mem_cons.mpr ⟨hx, hxs⟩

/-- What holds with one step more than enough, holds with enough steps. -/
lemma eventually_of_succ {P : Nat → Prop} (h : ∀ᶠ n in atTop, P (n + 1)) : ∀ᶠ n in atTop, P n := by
  rw [← map_add_atTop_eq_nat 1]
  exact h

lemma eventually_succ {P : Nat → Prop} (h : ∀ᶠ n in atTop, P n) : ∀ᶠ n in atTop, P (n + 1) :=
  (tendsto_add_atTop_nat 1).eventually h

/-! ## Components -/

section

variable {table : SymbolTable} {expanding : List Nat}

/-- What a type counts as is unfolded from it. -/
lemma unfolds_components {steps : Nat} {ty : Ty} {parts : List Ty}
    (hparts : components table expanding steps ty = some parts) :
    ∀ part ∈ parts, ReflTransGen table.Unfolds part ty := by
  refine components_keep (P := (ReflTransGen table.Unfolds · ty)) (fun other id body hbody h => ?_)
    (fun members h member hmember => ?_) (fun members h member hmember => ?_) hparts .refl
  · exact .head (.expand (expands_of_aliasBody? hbody)) h
  · exact .head (.part (.alternative hmember)) h
  · exact .head (.part (.conjunct hmember)) h

/-- **What a type counts as is found with enough steps.** -/
theorem components_eventually (hwf : WellFounded table.Unfolds) (expanding : List Nat) (ty : Ty) :
    ∃ parts, ∀ᶠ steps in atTop, components table expanding steps ty = some parts := by
  induction ty using hwf.transGen.induction with
  | _ ty ih =>
      have hfollowed : ReflTransGen table.Unfolds (followAliases table expanding ty) ty :=
        (follows_followAliases table expanding ty).keeps (P := (ReflTransGen table.Unfolds · ty))
          (fun _ _ _ hbody h => .head (.expand (expands_of_aliasBody? hbody)) h) .refl
      have hlists : ∀ members : List Ty, (∀ member ∈ members, TransGen table.Unfolds member ty) →
          ∃ lists, ∀ᶠ steps in atTop,
            members.mapM (components table expanding steps) = some lists := by
        intro members
        induction members with
        | nil => exact fun _ => ⟨[], .of_forall fun _ => rfl⟩
        | cons member members ihs =>
            intro hmembers
            obtain ⟨parts, hparts⟩ := ih member (hmembers member List.mem_cons_self)
            obtain ⟨lists, hlists⟩ := ihs fun other hother =>
              hmembers other (List.mem_cons_of_mem _ hother)
            refine ⟨parts :: lists, ?_⟩
            filter_upwards [hparts, hlists] with steps hparts hlists
            rw [List.mapM_cons, hparts, hlists]
            rfl
      cases hform : followAliases table expanding ty with
      | union members | intersection members =>
          rw [hform] at hfollowed
          obtain ⟨lists, hlists⟩ := hlists members fun member hmember =>
            .head' (.part (by constructor; exact hmember)) hfollowed
          refine ⟨lists.flatten, eventually_of_succ ?_⟩
          filter_upwards [hlists] with steps hlists
          simp only [components, hform, hlists, Option.map_some]
      | _ =>
          refine ⟨[followAliases table expanding ty], eventually_of_succ (.of_forall fun _ => ?_)⟩
          simp only [components, hform]

end

/-! ## Sessions -/

/-- **An invariant of sessions under which names and reports fail only as allowed**, whatever is
being expanded, in scope or detached. -/
structure Session.Steady (table : SymbolTable) (I : Session → Prop) (fails : Failure → Prop) :
    Prop where
  about : ∀ s, I s → s.table = table
  aside : ∀ s scopes expanding detachment, I s → I { s with scopes, expanding, detachment }
  report : ∀ d, (Work.report d).Yields I fails fun _ => True
  nameOf : ∀ id symbol, table.get? id = some symbol → symbol.kind.isEmitted = true →
    (Work.nameOf id).Yields I fails fun _ => True

/-- Sessions with an invariant in which some aliases are being expanded. -/
def Session.Expanding (I : Session → Prop) (expanding : List Nat) (s : Session) : Prop :=
  I s ∧ s.expanding = expanding

section

variable {table : SymbolTable} {I : Session → Prop} {fails : Failure → Prop} {expanding : List Nat}

/-- What makes no lasting change leaves the aliases that are being expanded. -/
lemma Work.Yields.whileExpanding {α : Type} {w : Work α} {Q : α → Prop} (hw : w.Yields I fails Q)
    (hcomposed : w.Composed (fun _ => True) Session.NoChange) :
    w.Yields (Session.Expanding I expanding) fails Q := fun s hs =>
  ⟨⟨(hw s hs.1).1, (hcomposed.undisturbed s).expanding.trans hs.2⟩, (hw s hs.1).2⟩

namespace Session.Steady

variable (h : Session.Steady table I fails)
include h

lemma reportUnsupported (construct : String) :
    (Work.reportUnsupported construct).Yields (Expanding I expanding) fails fun _ => True :=
  .get_bind fun _ _ => (h.report _).whileExpanding (.report _)

lemma reportUnresolved (name : String) :
    (Work.reportUnresolved name).Yields (Expanding I expanding) fails fun _ => True :=
  .get_bind fun _ _ => (h.report _).whileExpanding (.report _)

lemma inScope {α : Type} {w : Work α} {Q : α → Prop} (names : List String)
    (hw : w.Yields (Expanding I expanding) fails Q) :
    (Work.inScope names w).Yields (Expanding I expanding) fails Q :=
  .within (fun s hs => ⟨h.aside s _ _ _ hs.1, hs.2⟩) (fun s hs => ⟨h.aside s _ _ _ hs.1, hs.2⟩) hw

lemma detached {α : Type} {w : Work α} {Q : α → Prop}
    (hw : w.Yields (Expanding I expanding) fails Q) :
    (Work.detached w).Yields (Expanding I expanding) fails Q :=
  .within (fun s hs => ⟨h.aside s _ _ _ hs.1, hs.2⟩) (fun s hs => ⟨h.aside s _ _ _ hs.1, hs.2⟩) hw

lemma unfolding {α : Type} {w : Work α} {Q : α → Prop} {id : Nat}
    (hw : w.Yields (Expanding I (id :: expanding)) fails Q) :
    (Work.expanding id w).Yields (Expanding I expanding) fails Q :=
  .within (J := Expanding I (id :: expanding))
    (fun s hs => ⟨h.aside s _ _ _ hs.1, congrArg (id :: ·) hs.2⟩)
    (fun s hs => ⟨h.aside s _ _ _ hs.1, congrArg List.tail hs.2⟩) hw

end Session.Steady

/-! ## Distinct types -/

/-- **A type that is rendered to an end** with so many steps. -/
def Ty.Finishes (I : Session → Prop) (fails : Failure → Prop) (expanding : List Nat) (depth : Nat)
    (ty : Ty) (o : RenderOptions) : Prop :=
  (renderWithin depth ty o).Yields (Session.Expanding I expanding) fails fun _ => True

/-- Types with components that have a property and are rendered to an end where keys are wanted. -/
def Ty.AllReduce (I : Session → Prop) (fails : Failure → Prop) (table : SymbolTable)
    (expanding : List Nat) (depth : Nat) (P : Ty → Prop) (tys : List Ty) : Prop :=
  ∀ ty ∈ tys, ∃ parts, components table expanding depth ty = some parts ∧
    ∀ part ∈ parts, P part ∧ part.Finishes I fails expanding depth .key

section

variable (h : Session.Steady table I fails) {depth : Nat} {P : Ty → Prop}
include h

lemma Ty.Finishes.key {ty : Ty} (hty : ty.Finishes I fails expanding depth .key) :
    ((renderWithin depth).key ty).Yields (Session.Expanding I expanding) fails fun _ => True :=
  (h.detached hty).map fun _ _ => trivial

namespace DistinctTypes

lemma add_finishes {d : DistinctTypes} (hd : ∀ member ∈ d.types, P member) {ty : Ty}
    {parts : List Ty} (hparts : components table expanding depth ty = some parts)
    (hall : ∀ part ∈ parts, P part ∧ part.Finishes I fails expanding depth .key) :
    (d.add (renderWithin depth) depth ty).Yields (Session.Expanding I expanding) fails
      fun d => ∀ member ∈ d.types, P member := by
  refine .get_bind fun s hs => ?_
  rw [h.about s hs.1, hs.2, hparts]
  refine .foldlM hd fun d hd part hpart => ((hall part hpart).2.key h).map fun key _ => ?_
  intro member hmember
  rcases mem_types_insert hmember with hmember | rfl
  · exact hd member hmember
  · exact (hall member hpart).1

lemma ofTypes_finishes {tys : List Ty} (htys : Ty.AllReduce I fails table expanding depth P tys) :
    (ofTypes (renderWithin depth) depth tys).Yields (Session.Expanding I expanding) fails
      fun d => ∀ member ∈ d.types, P member := by
  refine .foldlM (by simp [types]) fun d hd ty hty => ?_
  obtain ⟨parts, hparts, hall⟩ := htys ty hty
  exact add_finishes h hd hparts hall

/-- The one type that stands for several is made of their components. -/
lemma representative_finishes {tys : List Ty}
    (htys : Ty.AllReduce I fails table expanding depth P tys) :
    (representative (renderWithin depth) depth tys).Yields (Session.Expanding I expanding) fails
      fun element => ∃ members, (∀ member ∈ members, P member) ∧
        element = (Ty.ofUnion members).getD .any :=
  (ofTypes_finishes h htys).map fun d hd => ⟨d.types, hd, rfl⟩

end DistinctTypes

/-! ## Forms of types -/

variable {o : RenderOptions}

omit h in
lemma renderSignature_finishes {sig : Signature}
    (hresult : sig.result.Finishes I fails expanding depth o)
    (hparams : ∀ p ∈ sig.params, p.type.Finishes I fails expanding depth o) :
    (renderSignature (renderWithin depth) o sig).Yields (Session.Expanding I expanding) fails
      fun _ => True := by
  refine .bind hresult fun _ _ => .bind (.mapM (Q := fun _ => True) fun p hp => ?_) fun _ _ =>
    .pure trivial
  exact (hparams p hp).map fun _ _ => trivial

lemma renderFunction_finishes {sig : Signature}
    (hresult : sig.result.Finishes I fails expanding depth o.nested)
    (hparams : ∀ p ∈ sig.params, p.type.Finishes I fails expanding depth o.nested) :
    (renderFunction (renderWithin depth) sig o).Yields (Session.Expanding I expanding) fails
      fun _ => True := by
  unfold renderFunction
  split_ifs
  · exact .table_bind fun _ _ => .pure trivial
  · exact (h.inScope _ (renderSignature_finishes hresult hparams)).map fun _ _ => trivial

/-- A reference is rendered to an end if its arguments are, and what it stands for. -/
lemma renderSymbol_finishes {ty : Ty} {id : Nat} {args : List Ty}
    (href : ty.reference? = some (id, args))
    (hargs : ∀ arg ∈ args, arg.Finishes I fails expanding depth o.argument)
    (hbody : ∀ body, table.Expands ty id body →
      body.Finishes I fails (id :: expanding) depth { o with typeArguments := none }) :
    (renderSymbol (renderWithin depth) id args o).Yields (Session.Expanding I expanding) fails
      fun _ => True := by
  refine .table_bind fun s hs => ?_
  rw [h.about s hs.1]
  cases hget : table.get? id with
  | none => exact .bind (h.reportUnresolved _) fun _ _ => .pure trivial
  | some symbol =>
      dsimp only
      cases hkind : symbol.kind with
      | «alias» =>
          unfold renderAlias
          cases hdefinition : symbol.aliased with
          | none => exact .pure trivial
          | some definition =>
              have hbody := hbody _ ⟨args, symbol, definition, href, hget, hkind, hdefinition, rfl⟩
              refine .get_bind fun s _ => ?_
              split
              · exact .bind (h.reportUnsupported _) fun _ _ => .pure trivial
              · exact h.unfolding hbody
      | klass | interface | enum =>
          have hname : (Work.nameOf id).Yields (Session.Expanding I expanding) fails
              fun _ => True :=
            (h.nameOf id symbol hget (by rw [hkind]; rfl)).whileExpanding
              (.nameOf (fun _ _ => trivial) id)
          refine .bind hname fun name _ => ?_
          cases name with
          | none => exact .pure trivial
          | some name =>
              dsimp only
              split_ifs
              · exact .pure trivial
              · refine .bind (.mapM (Q := fun _ => True) fun arg harg => ?_) fun _ _ =>
                  .pure trivial
                exact (hargs arg harg).map fun _ _ => trivial
      | function | «variable» | typeParameter | nameSpace =>
          exact .bind (h.reportUnsupported _) fun _ _ => .pure trivial

/-- A union is rendered to an end if the components of its members are, for their keys and to be
shown. -/
lemma renderUnion_finishes {members : List Ty}
    (hmembers : Ty.AllReduce I fails table expanding depth
      (fun part => part.Finishes I fails expanding depth o.display) members) (ty : Ty) :
    (renderUnion (renderWithin depth) depth ty members o).Yields (Session.Expanding I expanding)
      fails fun _ => True := by
  have hend : ∀ text, (if members.length > 1 then do
      return Rendered.annotated text (ty.text (← Work.table)) o
    else return Rendered.plain text : Work Rendered).Yields (Session.Expanding I expanding) fails
      fun _ => True := by
    intro text
    split_ifs
    · exact .table_bind fun _ _ => .pure trivial
    · exact .pure trivial
  refine .bind (DistinctTypes.ofTypes_finishes h hmembers) fun merged hmerged => ?_
  refine .bind (.filterM fun member hmember => ?_) fun concrete hconcrete => .get_bind fun s _ => ?_
  · exact (h.detached (hmerged member hmember)).map (Q := fun _ => True) fun _ _ => trivial
  · dsimp only
    cases hshown : shownMember (o.policy.getD s.policy) concrete with
    | none => exact .bind (P := fun _ => True) (.pure trivial) fun text _ => hend text
    | some member =>
        refine .bind (hmerged member (hconcrete (mem_of_shownMember hshown))) fun r _ => ?_
        exact .bind (P := fun _ => True) (.pure trivial) fun text _ => hend text

end

/-! ## All forms -/

/-- **A type that is rendered to an end with enough steps**, wherever it will stand. -/
def Ty.Settles (I : Session → Prop) (fails : Failure → Prop) (expanding : List Nat) (ty : Ty) :
    Prop :=
  ∀ o : RenderOptions, o.Plain → ∀ᶠ depth in atTop, ty.Finishes I fails expanding depth o

/-- A type with components that are rendered to an end. -/
def Ty.Reduces (I : Session → Prop) (fails : Failure → Prop) (table : SymbolTable)
    (expanding : List Nat) (ty : Ty) : Prop :=
  ∃ parts, (∀ᶠ steps in atTop, components table expanding steps ty = some parts) ∧
    ∀ part ∈ parts, part.IsComponent table expanding ∧ part.Settles I fails expanding

/-- There are only so many components. -/
lemma Ty.Reduces.all {tys : List Ty} (htys : ∀ ty ∈ tys, ty.Reduces I fails table expanding) :
    ∃ parts : List Ty,
      (∀ part ∈ parts, part.IsComponent table expanding ∧ part.Settles I fails expanding) ∧
        ∀ᶠ depth in atTop, Ty.AllReduce I fails table expanding depth (· ∈ parts) tys := by
  choose! partsOf hfound hparts using htys
  refine ⟨tys.flatMap partsOf, fun part hmem => ?_, eventually_forall_mem fun ty hty => ?_⟩
  · obtain ⟨ty, hty, hmem⟩ := List.mem_flatMap.mp hmem
    exact hparts ty hty part hmem
  · filter_upwards [hfound ty hty, eventually_forall_mem fun part hmem =>
      (hparts ty hty part hmem).2 .key .key] with depth hfound hkeys
    exact ⟨partsOf ty, hfound, fun part hmem =>
      ⟨List.mem_flatMap.mpr ⟨ty, hty, hmem⟩, hkeys part hmem⟩⟩

section

variable (h : Session.Steady table I fails) {o : RenderOptions}
include h

lemma renderFunction_eventually (ho : o.bindings = none) {sig : Signature}
    (hsig : ∀ part : Ty, part.Part (.function sig) → part.Settles I fails expanding) :
    ∀ᶠ depth in atTop, (renderFunction (renderWithin depth) sig o).Yields
      (Session.Expanding I expanding) fails fun _ => True := by
  filter_upwards [hsig _ (.result sig) o.nested ⟨rfl, ho⟩, eventually_forall_mem fun p hp =>
    hsig _ (.param sig hp) o.nested ⟨rfl, ho⟩] with depth hresult hparams
  exact renderFunction_finishes h hresult hparams

lemma renderSymbol_eventually (ho : o.bindings = none) {ty : Ty} {id : Nat} {args : List Ty}
    (href : ty.reference? = some (id, args))
    (hargs : ∀ arg ∈ args, arg.Settles I fails expanding)
    (hbody : ∀ body, table.Expands ty id body → body.Settles I fails (id :: expanding)) :
    ∀ᶠ depth in atTop, (renderSymbol (renderWithin depth) id args o).Yields
      (Session.Expanding I expanding) fails fun _ => True := by
  have hbody : ∀ᶠ depth in atTop, ∀ body, table.Expands ty id body →
      body.Finishes I fails (id :: expanding) depth { o with typeArguments := none } := by
    by_cases hexpands : ∃ body, table.Expands ty id body
    · obtain ⟨body, hexpands⟩ := hexpands
      filter_upwards [hbody body hexpands { o with typeArguments := none } ⟨rfl, ho⟩]
        with depth hfinishes other hother
      rw [(hother.unique hexpands).2]
      exact hfinishes
    · exact .of_forall fun _ body hbody => absurd ⟨body, hbody⟩ hexpands
  filter_upwards [hbody, eventually_forall_mem fun arg harg => hargs arg harg o.argument ⟨rfl, ho⟩]
    with depth hbody hargs
  exact renderSymbol_finishes h href hargs hbody

lemma renderUnion_eventually (ho : o.bindings = none) {members : List Ty}
    (hmembers : ∀ member ∈ members, member.Reduces I fails table expanding) :
    ∀ᶠ depth in atTop, ∀ ty, (renderUnion (renderWithin depth) depth ty members o).Yields
      (Session.Expanding I expanding) fails fun _ => True := by
  obtain ⟨parts, hparts, hreduce⟩ := Ty.Reduces.all hmembers
  filter_upwards [hreduce, eventually_forall_mem fun part hmem =>
    (hparts part hmem).2 o.display ⟨rfl, ho⟩] with depth hreduce hdisplay
  refine renderUnion_finishes h fun member hmember => ?_
  obtain ⟨found, hfound, hall⟩ := hreduce member hmember
  exact ⟨found, hfound, fun part hmem => (hall part hmem).imp_left (hdisplay part)⟩

/-- Types that are made into one are rendered to an end, whichever of some components they are. -/
lemma finishes_ofUnion (ho : o.Plain) {parts : List Ty} (hparts : ∀ part ∈ parts,
      part.IsComponent table expanding ∧ part.Settles I fails expanding) :
    ∀ᶠ depth in atTop, ∀ members, (∀ member ∈ members, member ∈ parts) →
      ((Ty.ofUnion members).getD .any).Finishes I fails expanding depth o := by
  have hall : ∀ o : RenderOptions, o.Plain →
      ∀ᶠ depth in atTop, ∀ part ∈ parts, part.Finishes I fails expanding depth o :=
    fun o ho => eventually_forall_mem fun part hpart => (hparts part hpart).2 o ho
  refine eventually_of_succ ?_
  filter_upwards [eventually_succ (hall o ho), hall .key .key, hall o.display ⟨rfl, ho.bindings⟩,
    eventually_ge_atTop 1] with depth hself hkey hdisplay hdepth members hmembers
  rcases members with _ | ⟨first, _ | ⟨second, rest⟩⟩
  · exact .pure trivial
  · exact hself first (hmembers first List.mem_cons_self)
  · refine renderUnion_finishes h (fun member hmember => ?_) _
    have hpart := hmembers member hmember
    obtain ⟨steps, rfl⟩ := Nat.exists_eq_add_of_le' hdepth
    refine ⟨[member], (hparts member hpart).1 steps, ?_⟩
    exact List.forall_mem_singleton.mpr ⟨hdisplay member hpart, hkey member hpart⟩

/-- The element type of a list is found and rendered to an end. -/
lemma element_eventually (ho : o.Plain) {tys : List Ty}
    (htys : ∀ ty ∈ tys, ty.Reduces I fails table expanding) :
    ∀ᶠ depth in atTop, ∀ {β : Type} (k : Rendered → Work β),
      (∀ r, (k r).Yields (Session.Expanding I expanding) fails fun _ => True) →
      (do let element ← DistinctTypes.representative (renderWithin depth) depth tys
          k (← renderWithin depth element o) : Work β).Yields
        (Session.Expanding I expanding) fails fun _ => True := by
  obtain ⟨parts, hparts, hreduce⟩ := Ty.Reduces.all htys
  filter_upwards [hreduce, finishes_ofUnion h ho hparts] with depth hreduce hunion β k hk
  refine .bind (DistinctTypes.representative_finishes h hreduce) ?_
  rintro element ⟨members, hmem, rfl⟩
  exact .bind (hunion members hmem) fun r _ => hk r

end

/-- The type that is rendered, with the arguments that the options supply for it. -/
def RenderOptions.given (o : RenderOptions) : Ty → Ty
  | .alias id => match o.typeArguments with
    | some args => .nominal id args
    | none => .alias id
  | ty => ty

lemma RenderOptions.given_of_none {o : RenderOptions} (ho : o.typeArguments = none) (ty : Ty) :
    o.given ty = ty := by
  cases ty <;> simp [given, ho]

/-- **With enough steps rendering comes to an end**, where unfolding does and no type parameters are
bound by the options.  It fails only where names and reports do. -/
theorem renderWithin_finishes (hwf : WellFounded table.Unfolds) (h : Session.Steady table I fails)
    (expanding : List Nat) (ty : Ty) (o : RenderOptions) (ho : o.bindings = none) :
    ∀ᶠ depth in atTop, ty.Finishes I fails expanding depth o := by
  suffices hall : ∀ target expanding ty (o : RenderOptions), o.bindings = none →
      o.given ty = target → ∀ᶠ depth in atTop, ty.Finishes I fails expanding depth o from
    hall _ expanding ty o ho rfl
  clear ty o ho expanding
  intro target
  -- the induction is on what is rendered on the way, with the arguments that the options supply
  induction target using hwf.transGen.induction with
  | _ target ih =>
      rintro expanding ty o ho rfl
      have hinner : ∀ inner, TransGen table.Unfolds inner (o.given ty) → ∀ expanding,
          inner.Settles I fails expanding := fun inner hinner expanding o' ho' =>
        ih inner hinner expanding inner o' ho'.bindings
          (RenderOptions.given_of_none ho'.typeArguments inner)
      have hpart : ∀ part : Ty, part.Part (o.given ty) → part.Settles I fails expanding :=
        fun part hpart => hinner part (.single (.part hpart)) expanding
      have hreduces : ∀ part : Ty, part.Part (o.given ty) →
          part.Reduces I fails table expanding := by
        intro part hpart
        obtain ⟨parts, hparts⟩ := components_eventually hwf expanding part
        obtain ⟨steps, hsteps⟩ := hparts.exists
        refine ⟨parts, hparts, fun inner hmem => ?_⟩
        exact ⟨isComponent_of_components hsteps inner hmem, hinner inner
          (.tail' (unfolds_components hsteps inner hmem) (.part hpart)) expanding⟩
      have hsymbol : ∀ id args, (o.given ty).reference? = some (id, args) → ∀ᶠ depth in atTop,
          (renderSymbol (renderWithin depth) id args o).Yields (Session.Expanding I expanding)
            fails fun _ => True := fun id args href =>
        renderSymbol_eventually h ho href
          (fun arg harg => hpart arg (Ty.part_of_reference? href harg))
          fun body hbody => hinner body (.single (.expand hbody)) (id :: expanding)
      refine eventually_of_succ ?_
      cases ty with
      | primitive | literal | raw => exact .of_forall fun _ => .pure trivial
      | nominal id args =>
          filter_upwards [hsymbol id args rfl] with depth hrun using hrun
      | «alias» id =>
          have href : (o.given (.alias id)).reference? = some (id, o.typeArguments.getD []) := by
            cases hargs : o.typeArguments <;> simp [RenderOptions.given, hargs, Ty.reference?]
          filter_upwards [hsymbol id _ href] with depth hrun using hrun
      | function sig =>
          filter_upwards [renderFunction_eventually h ho hpart] with depth hrun using hrun
      | array element =>
          filter_upwards [element_eventually h (o := o.argument) ⟨rfl, ho⟩
            (List.forall_mem_singleton.mpr (hreduces element .element))] with depth hrun
          exact hrun _ fun r => .pure trivial
      | tuple elements =>
          filter_upwards [element_eventually h (o := { o.argument with hideComment := true })
            ⟨rfl, ho⟩ fun element hmem => hreduces element (.component hmem)] with depth hrun
          exact hrun _ fun r => .table_bind fun _ _ => .pure trivial
      | shape members =>
          by_cases hcall : ∃ name sig isStatic span, members = [⟨name, .call sig, isStatic, span⟩]
          · obtain ⟨name, sig, isStatic, span, rfl⟩ := hcall
            have hsig : ∀ part : Ty, part.Part (.function sig) → part.Settles I fails expanding :=
              fun part hmem =>
                hinner part (.head (.part hmem) (.single (.part .call))) expanding
            filter_upwards [renderFunction_eventually h ho hsig] with depth hrun using hrun
          · refine .of_forall fun depth => ?_
            simp only [Ty.Finishes, renderWithin]
            unfold renderShape
            split
            · exact absurd ⟨_, _, _, _, rfl⟩ hcall
            · exact .table_bind fun _ _ => .pure trivial
      | param name =>
          refine .of_forall fun depth => ?_
          simp only [Ty.Finishes, renderWithin, ho, Option.bind_none]
          refine .get_bind fun s _ => ?_
          split_ifs <;> exact .pure trivial
      | union members =>
          filter_upwards [renderUnion_eventually h ho fun member hmem =>
            hreduces member (.alternative hmem)] with depth hrun
          exact hrun _
      | intersection members =>
          filter_upwards [renderUnion_eventually h ho fun member hmem =>
            hreduces member (.conjunct hmem)] with depth hrun
          exact hrun _

end

end Interop
