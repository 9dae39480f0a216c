import Interop.Proofs.Expansion
import Interop.Proofs.Renumbering.Sessions

/-!
# Rendering does not depend on numbers

A type and its counterpart are rendered alike, with the same reports, whatever form the type has.
All that may be reported is that an alias came up in its own expansion: in a closed table every
symbol that occurs in a type is there and names one.

* `Twins.Renders` — a renderer that treats corresponding types alike.
* `Twins.Distincts` — sets of types that correspond.
* **`Twins.renderWithin_agree`** — rendering with a bound treats corresponding types alike.
-/

namespace Interop

namespace Twins

variable {r : Twins} {notes : List Diagnostic}

/-- Types of twins that correspond. -/
abbrev Types (r : Twins) : Ty → Ty → Prop :=
  r.ρ.Types r.left.table

/-- A renderer that treats corresponding types alike. -/
def Renders (r : Twins) (notes : List Diagnostic) (render : Renderer) : Prop :=
  ∀ ⦃ty ty' : Ty⦄ ⦃o : RenderOptions⦄, r.Types ty ty' → o.Plain →
    r.Agree notes (render ty o) (render ty' o) (· = ·)

variable {render : Renderer}

lemma Renders.withComment (h : r.Renders notes render) {ty ty' : Ty} {o : RenderOptions}
    (hty : r.Types ty ty') (ho : o.Plain) :
    r.Agree notes (do return (← render ty o).withComment)
      (do return (← render ty' o).withComment) (· = ·) :=
  (h hty ho).map fun _ _ => congrArg _

lemma Renders.key (h : r.Renders notes render) {ty ty' : Ty} (hty : r.Types ty ty') :
    r.Agree notes (render.key ty) (render.key ty') (· = ·) :=
  (Agree.detached (h hty .key)).map fun _ _ => congrArg _

/-! ## Distinct types -/

/-- Sets of types that correspond, under the same keys. -/
def Distincts (r : Twins) (d d' : DistinctTypes) : Prop :=
  List.Forall₂ (fun e e' => e'.1 = e.1 ∧ r.Types e.2 e'.2) d.entries d'.entries

namespace Distincts

variable {d d' : DistinctTypes}

lemma empty : r.Distincts {} {} :=
  .nil

lemma types (h : r.Distincts d d') : List.Forall₂ r.Types d.types d'.types := by
  rw [DistinctTypes.types, DistinctTypes.types, List.forall₂_map_left_iff,
    List.forall₂_map_right_iff]
  exact h.imp fun _ _ => And.right

lemma keys (h : r.Distincts d d') : d'.keys = d.keys := by
  have hkeys : List.Forall₂ (fun k k' => k' = k) d.keys d'.keys := by
    rw [DistinctTypes.keys, DistinctTypes.keys, List.forall₂_map_left_iff,
      List.forall₂_map_right_iff]
    exact h.imp fun _ _ => And.left
  rw [← List.forall₂_eq_eq_eq]
  exact hkeys.flip

lemma insert (h : r.Distincts d d') {ty ty' : Ty} (hty : r.Types ty ty') (key : String) :
    r.Distincts (d.insert key ty) (d'.insert key ty') := by
  unfold DistinctTypes.insert
  rw [h.keys]
  split_ifs
  · exact h
  · exact List.rel_append h (.cons ⟨rfl, hty⟩ .nil)

lemma representative? (h : r.Distincts d d') :
    Option.Rel r.Types d.representative? d'.representative? :=
  Renumbering.Types.ofUnion h.types

/-- The type that stands for all, or another one if there is none. -/
lemma representative (h : r.Distincts d d') {ty ty' : Ty} (hty : r.Types ty ty') :
    r.Types (d.representative?.getD ty) (d'.representative?.getD ty') := by
  have hrel := h.representative?
  generalize d.representative? = found at hrel ⊢
  generalize d'.representative? = found' at hrel ⊢
  cases hrel with
  | none => exact hty
  | some hfound => exact hfound

end Distincts

lemma Renders.add (h : r.Renders notes render) (steps : Nat) {d d' : DistinctTypes}
    (hd : r.Distincts d d') {ty ty' : Ty} (hty : r.Types ty ty') :
    r.Agree notes (d.add render steps ty) (d'.add render steps ty') r.Distincts := by
  refine .get_bind fun s s' hs => ?_
  have hparts := r.tables.components s.expanding steps hty
  rw [← hs.expanding, ← hs.names.table, ← hs.names_right.table] at hparts
  generalize components s.table s.expanding steps ty = parts at hparts ⊢
  generalize components s'.table s'.expanding steps ty' = parts' at hparts ⊢
  cases hparts with
  | none => exact .exhausted
  | some hparts =>
      refine .foldlM (hparts.imp fun part part' hpart d d' hd => ?_) hd
      rw [hs.names.table] at hpart
      refine .bind (h.key hpart) ?_
      rintro key - rfl
      exact .pure (hd.insert hpart key)

lemma Renders.ofTypes (h : r.Renders notes render) (steps : Nat) {tys tys' : List Ty}
    (htys : List.Forall₂ r.Types tys tys') :
    r.Agree notes (DistinctTypes.ofTypes render steps tys)
      (DistinctTypes.ofTypes render steps tys') r.Distincts :=
  .foldlM (htys.imp fun _ _ hty _ _ hd => h.add steps hd hty) .empty

lemma Renders.representative (h : r.Renders notes render) (steps : Nat) {tys tys' : List Ty}
    (htys : List.Forall₂ r.Types tys tys') :
    r.Agree notes (DistinctTypes.representative render steps tys)
      (DistinctTypes.representative render steps tys') r.Types :=
  (h.ofTypes steps htys).map fun _ _ hd => hd.representative .any

/-! ## Forms of types -/

section

variable (h : r.Renders notes render) {o : RenderOptions} (ho : o.Plain)
include h ho

lemma renderSignature_agree {sig sig' : Signature} (hsig : r.ρ.Signatures r.left.table sig sig') :
    r.Agree notes (renderSignature render o sig) (renderSignature render o sig') (· = ·) := by
  unfold renderSignature
  rw [hsig.typeParams]
  refine .bind (h hsig.result ho) ?_
  rintro result - rfl
  refine .bind (.mapM_eq (hsig.params.imp fun p p' hp => ?_)) ?_
  · rw [hp.rest_eq.2.1]
    exact (h hp.type ho).map fun _ _ hr => by rw [hr]
  · rintro params - rfl
    exact .pure rfl

lemma renderFunction_agree {sig sig' : Signature} (hsig : r.ρ.Signatures r.left.table sig sig') :
    r.Agree notes (renderFunction render sig o) (renderFunction render sig' o) (· = ·) := by
  unfold renderFunction
  rw [hsig.isVariadic, hsig.typeParams]
  split_ifs
  · exact .table_bind (.pure (by rw [r.tables.functionText hsig]))
  · exact (Agree.inScope _ (renderSignature_agree h ho.nested hsig)).map fun _ _ => congrArg _

end

/-- What the parameters of an alias stand for corresponds. -/
lemma aliasBindings_map (f : Nat → Nat) (params : List String) (args : List Ty) :
    aliasBindings params (args.map (Ty.mapSymbols f)) =
      (aliasBindings params args).mapSymbols f := by
  have hgetD : ∀ i : Nat, (args[i]?.map (Ty.mapSymbols f)).getD .any =
      (args[i]?.getD .any).mapSymbols f := by
    intro i
    cases args[i]? <;> rfl
  simp [aliasBindings, Bindings.mapSymbols, hgetD, Function.comp_def]

/-- The body of an alias corresponds, once its parameters are replaced. -/
lemma substitute_types {body body' : Ty} (hbody : r.Types body body') {args args' : List Ty}
    (hargs : List.Forall₂ r.Types args args') (params : List String) :
    r.Types (body.substitute (aliasBindings params args))
      (body'.substitute (aliasBindings params args')) := by
  obtain ⟨rfl, hbody⟩ := hbody
  obtain ⟨rfl, hknows⟩ := Renumbering.Types.all hargs
  refine ⟨?_, fun id hid => ?_⟩
  · rw [aliasBindings_map, Ty.mapSymbols_substitute]
  · rcases Ty.mem_symbols_substitute body hid with hid | hid
    · exact hbody id hid
    · exact hknows id (mem_of_aliasBindings hid)

lemma omitsArguments_eq {args args' : List Ty} (hargs : List.Forall₂ r.Types args args') :
    omitsArguments args' = omitsArguments args := by
  cases hargs with
  | nil => rfl
  | cons hfirst hrest => cases hrest with
    | nil => exact hfirst.isAbsent
    | cons => rfl

lemma shownMember_rel (policy : UnionPolicy) {tys tys' : List Ty}
    (htys : List.Forall₂ r.Types tys tys') :
    Option.Rel r.Types (shownMember policy tys) (shownMember policy tys') := by
  cases htys with
  | nil => exact .none
  | cons hfirst hrest => cases hrest with
    | nil => exact .some hfirst
    | cons => cases policy with
      | untyped => exact .none
      | firstConcrete => exact .some hfirst

/-- A report at the place where both point. -/
lemma Agree.reportUnsupported {construct : String}
    (h : ∀ span, r.left.table.Expects notes (.unsupported span construct)) :
    r.Agree notes (Work.reportUnsupported construct) (Work.reportUnsupported construct)
      (· = ·) := by
  refine .get_bind fun s s' hs => ?_
  rw [hs.position]
  exact .report (h _)

section

variable (h : r.Renders notes render) {o : RenderOptions} (ho : o.Plain)
include h ho

lemma renderAlias_agree {id : Nat} {symbol : Symbol} (hid : r.left.table.get? id = some symbol)
    (hkind : symbol.kind = .alias) {args args' : List Ty}
    (hargs : List.Forall₂ r.Types args args') :
    r.Agree notes (renderAlias render id symbol args o)
      (renderAlias render (r.ρ.symbol id) (symbol.renumber r.ρ) args' o) (· = ·) := by
  have hplain : RenderOptions.Plain { o with typeArguments := none } := ⟨rfl, ho.bindings⟩
  have hright : (symbol.renumber r.ρ).aliased = symbol.aliased.map (Ty.mapSymbols r.ρ.symbol) ∧
      (symbol.renumber r.ρ).name = symbol.name ∧
      (symbol.renumber r.ρ).typeParams = symbol.typeParams := ⟨rfl, rfl, rfl⟩
  unfold renderAlias
  rw [hright.1, hright.2.1, hright.2.2]
  cases haliased : symbol.aliased with
  | none => exact .pure rfl
  | some body =>
      have hbody := r.tables.aliased hid haliased
      refine .get_bind fun s s' hs => ?_
      rw [hs.expanding, r.ρ.contains_map]
      split_ifs
      · refine .bind (.reportUnsupported fun span => Or.inr ⟨id, symbol, span, hid, hkind, rfl⟩) ?_
        rintro - - -
        exact .pure rfl
      · exact .expanding id (h hbody hplain)
      · exact .expanding id (h (substitute_types hbody hargs _) hplain)

lemma renderNominal_agree {id : Nat} {symbol : Symbol} (hid : r.left.table.get? id = some symbol)
    (hkind : symbol.kind.isEmitted = true) {args args' : List Ty}
    (hargs : List.Forall₂ r.Types args args') :
    r.Agree notes (renderNominal render id symbol args o)
      (renderNominal render (r.ρ.symbol id) (symbol.renumber r.ρ) args' o) (· = ·) := by
  unfold renderNominal
  refine .bind (.nameOf hid hkind) ?_
  rintro name - rfl
  cases name with
  | none => exact .pure rfl
  | some name =>
      simp only [omitsArguments_eq hargs]
      split_ifs
      · exact .pure rfl
      · exact (Agree.mapM_eq (hargs.imp fun _ _ harg => h.withComment harg ho.argument)).map
          fun _ _ hr => by rw [hr]

/-- **A reference to a type** goes the same way.  That it does not name a type is never reported. -/
lemma renderSymbol_agree {id : Nat} (hid : r.left.table.IsTypeSymbol id) {args args' : List Ty}
    (hargs : List.Forall₂ r.Types args args') :
    r.Agree notes (renderSymbol render id args o) (renderSymbol render (r.ρ.symbol id) args' o)
      (· = ·) := by
  obtain ⟨symbol, hget, hkind⟩ := hid
  unfold renderSymbol
  refine .table_bind ?_
  have hright : (symbol.renumber r.ρ).kind = symbol.kind := rfl
  simp only [hget, r.tables.get?_some hget, hright]
  rcases hkind with hkind | hkind | hkind | hkind
  · simp only [hkind]
    exact renderNominal_agree h ho hget (by rw [hkind]; rfl) hargs
  · simp only [hkind]
    exact renderNominal_agree h ho hget (by rw [hkind]; rfl) hargs
  · simp only [hkind]
    exact renderAlias_agree h ho hget hkind hargs
  · simp only [hkind]
    exact renderNominal_agree h ho hget (by rw [hkind]; rfl) hargs

lemma renderShape_agree {members : List Member}
    (hmembers : r.left.table.Knows (Member.symbolsAll members)) :
    r.Agree notes (renderShape render members o)
      (renderShape render (Member.mapSymbolsAll r.ρ.symbol members) o) (· = ·) := by
  have htypes : r.Types (.shape members) (.shape (Member.mapSymbolsAll r.ρ.symbol members)) :=
    ⟨rfl, hmembers⟩
  have htext : r.Agree notes (do
      return Rendered.annotated untypedText ((Ty.shape members).text (← Work.table)) o) (do
      return Rendered.annotated untypedText
        ((Ty.shape (Member.mapSymbolsAll r.ρ.symbol members)).text (← Work.table)) o) (· = ·) :=
    .table_bind (.pure (by rw [r.tables.text htypes]))
  rcases members with _ | ⟨⟨name, kind, isStatic, span⟩, _ | ⟨second, rest⟩⟩
  · exact htext
  · cases kind with
    | call sig => exact renderFunction_agree h ho ⟨rfl, (SymbolTable.knows_append.mp hmembers).1⟩
    | _ => exact htext
  · cases kind <;> exact htext

lemma renderUnion_agree (steps : Nat) {ty ty' : Ty} (hty : r.Types ty ty')
    {members members' : List Ty}
    (hmembers : List.Forall₂ r.Types members members') :
    r.Agree notes (renderUnion render steps ty members o)
      (renderUnion render steps ty' members' o) (· = ·) := by
  have hplain : RenderOptions.Plain { o with hideComment := true, typeArguments := none } :=
    ⟨rfl, ho.bindings⟩
  have hend : ∀ text, r.Agree notes (if members.length > 1 then do
        return Rendered.annotated text (ty.text (← Work.table)) o
      else return Rendered.plain text) (if members'.length > 1 then do
        return Rendered.annotated text (ty'.text (← Work.table)) o
      else return Rendered.plain text) (· = ·) := by
    intro text
    rw [← hmembers.length_eq]
    split_ifs
    · exact .table_bind (.pure (by rw [r.tables.text hty]))
    · exact .pure rfl
  refine .bind (h.ofTypes steps hmembers) fun merged merged' hmerged => ?_
  refine .bind (.filterM (R := r.Types) (hmerged.types.imp fun member member' hmember =>
    ⟨hmember, (Agree.detached (h hmember hplain)).map fun _ _ => congrArg _⟩))
    fun concrete concrete' hconcrete => ?_
  refine .get_bind fun s s' hs => ?_
  rw [hs.policy]
  have hshown := shownMember_rel (o.policy.getD s.policy) hconcrete
  dsimp only
  generalize shownMember (o.policy.getD s.policy) concrete = shown at hshown ⊢
  generalize shownMember (o.policy.getD s.policy) concrete' = shown' at hshown ⊢
  cases hshown with
  | none => exact .bind (.pure rfl) fun _ _ htext => htext ▸ hend _
  | some hmember =>
      refine .bind (h hmember hplain) ?_
      rintro rendered - rfl
      exact .bind (.pure rfl) fun _ _ htext => htext ▸ hend _

end

/-! ## All forms -/

/-- **Corresponding types are rendered alike**, however deep it may go. -/
theorem renderWithin_agree (depth : Nat) : r.Renders notes (renderWithin depth) := by
  induction depth with
  | zero => exact fun _ _ _ _ _ => .exhausted
  | succ depth ih =>
      intro ty ty' o hty ho
      obtain ⟨rfl, hknows⟩ := hty
      have hty : r.Types ty (ty.mapSymbols r.ρ.symbol) := ⟨rfl, hknows⟩
      cases ty with
      | primitive kind => exact .pure rfl
      | nominal id args =>
          obtain ⟨hid, hargs⟩ := SymbolTable.knows_cons.mp hknows
          simp only [Ty.mapSymbols, Ty.mapSymbolsAll_eq, renderWithin]
          exact renderSymbol_agree ih ho hid (Renumbering.forall₂_types hargs)
      | «alias» id =>
          simp only [Ty.mapSymbols, renderWithin, ho.typeArguments]
          exact renderSymbol_agree ih ho (SymbolTable.knows_cons.mp hknows).1 .nil
      | function sig => exact renderFunction_agree ih ho ⟨rfl, hknows⟩
      | array element =>
          refine .bind (ih.representative depth (.cons ⟨rfl, hknows⟩ .nil)) fun _ _ helement => ?_
          exact (ih helement ho.argument).map fun _ _ hr => by rw [hr]
      | tuple elements =>
          have helements := Renumbering.forall₂_types (ρ := r.ρ) hknows
          rw [← Ty.mapSymbolsAll_eq] at helements
          refine .bind (ih.representative depth helements) fun _ _ helement => ?_
          refine .bind (ih helement ⟨rfl, ho.bindings⟩) ?_
          rintro rendered - rfl
          exact .table_bind (.pure (by rw [← r.tables.text hty]))
      | shape members => exact renderShape_agree ih ho hknows
      | param name =>
          simp only [Ty.mapSymbols, renderWithin, ho.bindings, Option.bind_none]
          refine .get_bind fun s s' hs => ?_
          rw [Session.inScope, Session.inScope, hs.scopes]
          split_ifs <;> exact .pure rfl
      | literal kind text => exact .pure rfl
      | union members | intersection members =>
          have hmembers := Renumbering.forall₂_types (ρ := r.ρ) hknows
          rw [← Ty.mapSymbolsAll_eq] at hmembers
          exact renderUnion_agree ih ho depth hty hmembers
      | raw text => exact .pure rfl

lemma render_agree : r.Renders notes Interop.render :=
  renderWithin_agree depthLimit

lemma distinctTypes_agree {tys tys' : List Ty} (htys : List.Forall₂ r.Types tys tys') :
    r.Agree notes (distinctTypes tys) (distinctTypes tys') r.Distincts :=
  Renders.ofTypes render_agree depthLimit htys

end Twins

end Interop
