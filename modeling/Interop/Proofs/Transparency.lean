import Interop.Proofs.Inlining
import Interop.Proofs.Matching
import Interop.Proofs.Preparation
import Interop.Proofs.Rendering
import Mathlib

/-!
# Aliases are transparent

Where definitions are regular and a type shares no alias with parameters between a reference and its
arguments, rendering the type never reports a recursive alias.  A reference and what it stands for
then have one key, so one can be replaced by the other wherever merging does not tell them apart.

* `Renderer.Matches` — two renderers of which one renders what the other does, with references
  replaced.
* `renderWithin_matches` — rendering with more steps, with references replaced.
* **`render_transparent`** — no recursive alias is reported, and replacing references keeps the key.
-/

namespace Interop

open Relation Work

variable {table : SymbolTable} {notes : Bool} {first second : List Nat}

/-! ## Options -/

/-- Options of the program.  Where references are replaced, no notes are written. -/
structure RenderOptions.Shows (notes : Bool) (o : RenderOptions) : Prop where
  plain : o.Plain
  silent : notes = false → o.insideComment = true

namespace RenderOptions.Shows

variable {o : RenderOptions}

lemma key : Shows notes .key :=
  ⟨.key, fun _ => rfl⟩

lemma nested (h : o.Shows notes) : o.nested.Shows notes :=
  ⟨h.plain.nested, h.silent⟩

lemma argument (h : o.Shows notes) : o.argument.Shows notes :=
  ⟨h.plain.argument, h.silent⟩

/-- The options that a member of a union is shown with. -/
lemma display (h : o.Shows notes) :
    Shows notes { o with hideComment := true, typeArguments := none } :=
  ⟨⟨rfl, h.plain.bindings⟩, h.silent⟩

/-- Notes that are written are the same. -/
lemma annotated (h : o.Shows notes) {note note' : String} (hnote : notes = true → note = note')
    (text : String) : Rendered.annotated text note o = Rendered.annotated text note' o := by
  cases notes with
  | true => rw [hnote rfl]
  | false => simp [Rendered.annotated, RenderOptions.annotates, h.silent rfl]

end RenderOptions.Shows

/-! ## Kin -/

/-- **A type and what it is with references replaced**, both safe where they are rendered. -/
structure Kin (table : SymbolTable) (notes : Bool) (first second : List Nat) (place : InlinePlace)
    (ty ty' : Ty) : Prop where
  inlines : Inlines table notes place ty ty'
  left : ty.Safe table first
  right : ty'.Safe table second

namespace Kin

variable {place : InlinePlace} {ty ty' : Ty}

/-- Parts of safe types that correspond. -/
lemma all {tys tys' : List Ty} (h : List.Forall₂ (Inlines table notes place) tys tys')
    (hleft : ∀ ty ∈ tys, ty.Safe table first) (hright : ∀ ty ∈ tys', ty.Safe table second) :
    List.Forall₂ (Kin table notes first second place) tys tys' := by
  induction h with
  | nil => exact .nil
  | cons hty _ ih =>
      refine .cons ⟨hty, hleft _ List.mem_cons_self, hright _ List.mem_cons_self⟩ (ih ?_ ?_)
      · exact fun other hother => hleft other (List.mem_cons_of_mem _ hother)
      · exact fun other hother => hright other (List.mem_cons_of_mem _ hother)

lemma any : Kin table notes first second place .any .any :=
  ⟨Inlines.refl _ _, .any, .any⟩

lemma safe {tys tys' : List Ty} (h : List.Forall₂ (Kin table notes first second place) tys tys') :
    (∀ ty ∈ tys, ty.Safe table first) ∧ ∀ ty ∈ tys', ty.Safe table second := by
  induction h with
  | nil => exact ⟨by simp, by simp⟩
  | cons hty _ ih =>
      exact ⟨List.forall_mem_cons.mpr ⟨hty.left, ih.1⟩, List.forall_mem_cons.mpr ⟨hty.right, ih.2⟩⟩

/-- Types that are made into one. -/
lemma ofUnion {tys tys' : List Ty}
    (h : List.Forall₂ (Kin table notes first second .part) tys tys') :
    Option.Rel (Kin table notes first second .part) (Ty.ofUnion tys) (Ty.ofUnion tys') := by
  have hunion := Inlines.zipped (h.imp fun _ _ h => h.inlines)
  obtain ⟨hleft, hright⟩ := safe h
  have hkin : Kin table notes first second .part (.union tys) (.union tys') :=
    ⟨.union hunion.1 hunion.2, .union hleft, .union hright⟩
  cases h with
  | nil => exact .none
  | cons hfirst hrest => cases hrest with
    | nil => exact .some hfirst
    | cons => exact .some hkin

/-- What kin count as. -/
lemma components (htable : table.Regular) (h : Kin table notes first second .part ty ty')
    {steps steps' : Nat} (hsteps : steps ≤ steps') {parts : List Ty}
    (hparts : components table first steps ty = some parts) : ∃ parts',
      Interop.components table second steps' ty' = some parts' ∧
        List.Forall₂ (Kin table notes first second .part) parts parts' := by
  have hparts' := hparts
  rw [components_of_safe htable steps h.left] at hparts'
  obtain ⟨parts', hright, hall⟩ := h.inlines.components htable hsteps hparts'
  rw [← components_of_safe htable steps' h.right] at hright
  exact ⟨parts', hright, all hall (h.left.components htable hparts)
    (h.right.components htable hright)⟩

end Kin

/-- **Renderers of which one renders what the other does**, with references replaced. -/
def Renderer.Matches (table : SymbolTable) (notes : Bool) (render render' : Renderer) : Prop :=
  ∀ {first second : List Nat} {place : InlinePlace} {ty ty' : Ty} {o : RenderOptions},
    Kin table notes first second place ty ty' → o.Shows notes →
      Work.Matches table first second (render ty o) (render' ty' o) (· = ·)

section

variable {render render' : Renderer} (h : render.Matches table notes render')
include h

lemma Renderer.Matches.key {place : InlinePlace} {ty ty' : Ty}
    (hty : Kin table notes first second place ty ty') :
    Work.Matches table first second (render.key ty) (render'.key ty') (· = ·) :=
  (Work.Matches.detached (h hty .key)).map fun _ _ => congrArg _

lemma Renderer.Matches.withComment {place : InlinePlace} {ty ty' : Ty} {o : RenderOptions}
    (hty : Kin table notes first second place ty ty') (ho : o.Shows notes) :
    Work.Matches table first second (do return (← render ty o).withComment)
      (do return (← render' ty' o).withComment) (· = ·) :=
  (h hty ho).map fun _ _ => congrArg _

end

/-! ## Distinct types -/

/-- Sets of types that correspond, under the same keys. -/
def DistinctTypes.Kin (table : SymbolTable) (notes : Bool) (first second : List Nat)
    (d d' : DistinctTypes) : Prop :=
  List.Forall₂ (fun e e' => e'.1 = e.1 ∧ Interop.Kin table notes first second .part e.2 e'.2)
    d.entries d'.entries

namespace DistinctTypes.Kin

variable {d d' : DistinctTypes}

lemma types (h : d.Kin table notes first second d') :
    List.Forall₂ (Interop.Kin table notes first second .part) d.types d'.types := by
  rw [DistinctTypes.types, DistinctTypes.types, List.forall₂_map_left_iff,
    List.forall₂_map_right_iff]
  exact h.imp fun _ _ => And.right

lemma keys (h : d.Kin table notes first second d') : d'.keys = d.keys := by
  have hkeys : List.Forall₂ (fun k k' => k' = k) d.keys d'.keys := by
    rw [DistinctTypes.keys, DistinctTypes.keys, List.forall₂_map_left_iff,
      List.forall₂_map_right_iff]
    exact h.imp fun _ _ => And.left
  rw [← List.forall₂_eq_eq_eq]
  exact hkeys.flip

lemma insert (h : d.Kin table notes first second d') {ty ty' : Ty}
    (hty : Interop.Kin table notes first second .part ty ty') (key : String) :
    (d.insert key ty).Kin table notes first second (d'.insert key ty') := by
  unfold DistinctTypes.insert
  rw [h.keys]
  split_ifs
  · exact h
  · exact List.rel_append h (.cons ⟨rfl, hty⟩ .nil)

/-- The type that stands for all, or any if there is none. -/
lemma representative (h : d.Kin table notes first second d') :
    Interop.Kin table notes first second .part (d.representative?.getD .any)
      (d'.representative?.getD .any) := by
  have hrel := Interop.Kin.ofUnion h.types
  change Option.Rel _ d.representative? d'.representative? at hrel
  generalize d.representative? = found at hrel ⊢
  generalize d'.representative? = found' at hrel ⊢
  cases hrel with
  | none => exact .any
  | some hfound => exact hfound

end DistinctTypes.Kin

section

variable {render render' : Renderer} (htable : table.Regular)
  (h : render.Matches table notes render') {steps steps' : Nat} (hsteps : steps ≤ steps')
include htable h hsteps

lemma Renderer.Matches.add {d d' : DistinctTypes} (hd : d.Kin table notes first second d')
    {ty ty' : Ty} (hty : Kin table notes first second .part ty ty') :
    Work.Matches table first second (d.add render steps ty) (d'.add render' steps' ty')
      (·.Kin table notes first second ·) := by
  refine .get_bind fun s hs hfirst => ?_
  rw [hs, hfirst, show (s.during second).table = table from hs,
    show (s.during second).expanding = second from rfl]
  cases hparts : components table first steps ty with
  | none => exact .exhausted _
  | some parts =>
      obtain ⟨parts', hparts', hall⟩ := hty.components htable hsteps hparts
      rw [hparts']
      refine .foldlM (hall.imp fun part part' hpart d d' hd => ?_) hd
      refine .bind (h.key hpart) ?_
      rintro key - rfl
      exact .pure (hd.insert hpart key)

lemma Renderer.Matches.ofTypes {tys tys' : List Ty}
    (htys : List.Forall₂ (Kin table notes first second .part) tys tys') :
    Work.Matches table first second (DistinctTypes.ofTypes render steps tys)
      (DistinctTypes.ofTypes render' steps' tys') (·.Kin table notes first second ·) :=
  .foldlM (htys.imp fun _ _ hty _ _ hd => h.add htable hsteps hd hty) List.Forall₂.nil

lemma Renderer.Matches.representative {tys tys' : List Ty}
    (htys : List.Forall₂ (Kin table notes first second .part) tys tys') :
    Work.Matches table first second (DistinctTypes.representative render steps tys)
      (DistinctTypes.representative render' steps' tys')
      (Kin table notes first second .part) :=
  (h.ofTypes htable hsteps htys).map fun _ _ hd => hd.representative

end

/-! ## Forms of types -/

lemma shownMember_kin (policy : UnionPolicy) {place : InlinePlace} {tys tys' : List Ty}
    (htys : List.Forall₂ (Kin table notes first second place) tys tys') :
    Option.Rel (Kin table notes first second place) (shownMember policy tys)
      (shownMember policy tys') := by
  cases htys with
  | nil => exact .none
  | cons hfirst hrest => cases hrest with
    | nil => exact .some hfirst
    | cons => cases policy with
      | untyped => exact .none
      | firstConcrete => exact .some hfirst

section

variable {render render' : Renderer} (h : render.Matches table notes render') {o : RenderOptions}
  (ho : o.Shows notes)
include h ho

lemma renderSignature_matches (typeParams : List String) {params params' : List Param}
    {result result' : Ty}
    (hparams : List.Forall₂ (fun p p' => p.SameBut p' ∧
      Kin table notes first second .text p.type p'.type) params params')
    (hresult : Kin table notes first second .text result result') :
    Work.Matches table first second (renderSignature render o ⟨typeParams, params, result⟩)
      (renderSignature render' o ⟨typeParams, params', result'⟩) (· = ·) := by
  refine .bind (h hresult ho) ?_
  rintro rendered - rfl
  refine .bind (.mapM_eq (hparams.imp fun p p' hp => ?_)) ?_
  · rw [hp.1.2.1]
    exact (h hp.2 ho).map fun _ _ hr => by rw [hr]
  · rintro texts - rfl
    exact .pure rfl

lemma renderFunction_matches (typeParams : List String) {params params' : List Param}
    {result result' : Ty}
    (hparams : List.Forall₂ (fun p p' => p.SameBut p' ∧
      Kin table notes first second .text p.type p'.type) params params')
    (hresult : Kin table notes first second .text result result')
    (hnotes : notes = true → params = params' ∧ result = result') :
    Work.Matches table first second (renderFunction render ⟨typeParams, params, result⟩ o)
      (renderFunction render' ⟨typeParams, params', result'⟩ o) (· = ·) := by
  have hvariadic : Signature.isVariadic ⟨typeParams, params, result⟩ =
      Signature.isVariadic ⟨typeParams, params', result'⟩ := by
    show params.any (·.rest) = params'.any (·.rest)
    clear hnotes
    induction hparams with
    | nil => rfl
    | cons hp _ ih => rw [List.any_cons, List.any_cons, hp.1.2.2, ih]
  unfold renderFunction
  rw [hvariadic]
  split_ifs
  · refine .table_bind (.pure (ho.annotated (fun h => ?_) _))
    rw [(hnotes h).1, (hnotes h).2]
  · exact (Work.Matches.inScope typeParams
      (renderSignature_matches h ho.nested typeParams hparams hresult)).map fun _ _ => congrArg _

lemma renderNominal_matches (id : Nat) (symbol : Symbol) {args args' : List Ty}
    (homits : omitsArguments args = omitsArguments args')
    (hargs : List.Forall₂ (Kin table notes first second .text) args args') :
    Work.Matches table first second (renderNominal render id symbol args o)
      (renderNominal render' id symbol args' o) (· = ·) := by
  refine .bind (.nameOf id) ?_
  rintro name - rfl
  cases name with
  | none => exact .pure rfl
  | some name =>
      simp only [homits]
      split_ifs
      · exact .pure rfl
      · exact (Work.Matches.mapM_eq (hargs.imp fun _ _ harg => h.withComment harg ho.argument)).map
          fun _ _ hr => by rw [hr]

lemma renderUnion_matches (htable : table.Regular) {steps steps' : Nat} (hsteps : steps ≤ steps')
    {ty ty' : Ty} (hnotes : notes = true → ty = ty') {members members' : List Ty}
    (hmembers : List.Forall₂ (Kin table notes first second .part) members members') :
    Work.Matches table first second (renderUnion render steps ty members o)
      (renderUnion render' steps' ty' members' o) (· = ·) := by
  have hend : ∀ text, Work.Matches table first second (if members.length > 1 then do
        return Rendered.annotated text (ty.text (← Work.table)) o
      else return Rendered.plain text) (if members'.length > 1 then do
        return Rendered.annotated text (ty'.text (← Work.table)) o
      else return Rendered.plain text) (· = ·) := by
    intro text
    rw [← hmembers.length_eq]
    split_ifs
    · exact .table_bind (.pure (ho.annotated (fun h => by rw [hnotes h]) _))
    · exact .pure rfl
  refine .bind (h.ofTypes htable hsteps hmembers) fun merged merged' hmerged => ?_
  refine .bind (.filterM (hmerged.types.imp fun member member' hmember =>
    ⟨hmember, (Work.Matches.detached (h hmember ho.display)).map fun _ _ => congrArg _⟩))
    fun concrete concrete' hconcrete => ?_
  refine .get_bind fun s _ _ => ?_
  rw [show (s.during second).policy = s.policy from rfl]
  have hshown := shownMember_kin (o.policy.getD s.policy) hconcrete
  dsimp only
  generalize shownMember (o.policy.getD s.policy) concrete = shown at hshown ⊢
  generalize shownMember (o.policy.getD s.policy) concrete' = shown' at hshown ⊢
  cases hshown with
  | none => exact .bind (.pure rfl) fun _ _ htext => htext ▸ hend _
  | some hmember =>
      refine .bind (h hmember ho.display) ?_
      rintro rendered - rfl
      exact .bind (.pure rfl) fun _ _ htext => htext ▸ hend _

omit h in
/-- An object type that is no function has one text, apart from its note. -/
lemma renderShape_matches {members members' : List Member} (hcall : Member.onlyCall? members = none)
    (hcall' : Member.onlyCall? members' = none) (hnotes : notes = true → members = members') :
    Work.Matches table first second (renderShape render members o) (renderShape render' members' o)
      (· = ·) := by
  have hshape : ∀ {members : List Member} {render : Renderer}, Member.onlyCall? members = none →
      renderShape render members o = (do
        return Rendered.annotated untypedText ((Ty.shape members).text (← Work.table)) o) := by
    intro members render hcall
    rcases members with _ | ⟨⟨name, kind, isStatic, span⟩, _ | ⟨second, rest⟩⟩
    · rfl
    · cases kind with
      | call sig => cases hcall
      | _ => rfl
    · cases kind <;> rfl
  rw [hshape hcall, hshape hcall']
  exact .table_bind (.pure (ho.annotated (fun h => by rw [hnotes h]) _))

end

/-! ## References -/

section

variable {render render' : Renderer} (htable : table.Regular)
  (h : render.Matches table notes render') {o : RenderOptions} (ho : o.Shows notes)
include htable h ho

/-- **References to one symbol** are rendered alike.  The arguments of an alias are put into its
definition. -/
lemma renderSymbol_matches {id : Nat} {args args' : List Ty} {ty ty' : Ty}
    (hty : ty.reference? = some (id, args)) (hty' : ty'.reference? = some (id, args'))
    (hleft : ty.Safe table first) (hright : ty'.Safe table second)
    (halias : ∀ symbol, table.get? id = some symbol → symbol.kind = .alias →
      List.Forall₂ (Inlines table notes .argument) args args')
    (homits : omitsArguments args = omitsArguments args')
    (hargs : List.Forall₂ (Kin table notes first second .text) args args') :
    Work.Matches table first second (renderSymbol render id args o)
      (renderSymbol render' id args' o) (· = ·) := by
  cases hget : table.get? id with
  | none =>
      refine .table_bind ?_
      simp only [hget]
      exact .bind (.reportUnresolved _) fun _ _ _ => .pure rfl
  | some symbol =>
      cases hkind : symbol.kind with
      | «alias» =>
          cases hdefinition : symbol.aliased with
          | none =>
              refine .table_bind ?_
              simp only [hget, hkind, renderAlias, hdefinition]
              exact .pure rfl
          | some definition =>
              have hexpands : table.Expands ty id _ :=
                ⟨args, symbol, definition, hty, hget, hkind, hdefinition, rfl⟩
              have hexpands' : table.Expands ty' id _ :=
                ⟨args', symbol, definition, hty', hget, hkind, hdefinition, rfl⟩
              have hplain : RenderOptions.Shows notes { o with typeArguments := none } :=
                ⟨⟨rfl, ho.plain.bindings⟩, ho.silent⟩
              have hkin : Kin table notes (id :: first) (id :: second) .text _ _ :=
                ⟨Inlines.expansion symbol definition (halias symbol hget hkind),
                  hleft.expand htable hexpands, hright.expand htable hexpands'⟩
              refine .congr (fun s hs hfirst => ?_) (fun s hs hsecond => ?_)
                (.expanding id (h hkin hplain))
              · exact exec_renderSymbol_alias (hs ▸ hget) hkind hdefinition
                  (hfirst ▸ hleft.not_mem htable hexpands.mem_symbols)
              · exact exec_renderSymbol_alias (hs ▸ hget) hkind hdefinition
                  (hsecond ▸ hright.not_mem htable hexpands'.mem_symbols)
      | klass | interface | enum =>
          refine .table_bind ?_
          simp only [hget, hkind]
          exact renderNominal_matches h ho id symbol homits hargs
      | function | «variable» | typeParameter | nameSpace =>
          refine .table_bind ?_
          simp only [hget, hkind]
          exact .bind (.reportUnsupported fun _ => not_reportsRecursion _) fun _ _ _ => .pure rfl

end

/-! ## All forms -/

/-- **Rendering with more steps, with references replaced.** -/
theorem renderWithin_matches (htable : table.Regular)
    (hmono : notes = false → ∀ depth depth', depth ≤ depth' →
      (renderWithin depth).Matches table true (renderWithin depth')) :
    ∀ depth depth', depth ≤ depth' →
      (renderWithin depth).Matches table notes (renderWithin depth') := by
  intro depth
  induction depth with
  | zero => exact fun _ _ _ _ _ _ _ _ _ _ => .exhausted _
  | succ depth ih =>
      rintro (_ | depth') hdepth first second place ty ty' o ⟨hinlines, hleft, hright⟩ ho
      · omega
      have hle : depth ≤ depth' := Nat.le_of_succ_le_succ hdepth
      have hrender : (renderWithin depth).Matches table notes (renderWithin depth') := ih depth' hle
      induction hinlines generalizing first second o with
      | primitive kind => exact .pure rfl
      | literal kind text => exact .pure rfl
      | raw text => exact .pure rfl
      | param name =>
          simp only [renderWithin, ho.plain.bindings, Option.bind_none]
          refine .get_bind fun s _ _ => ?_
          rw [show (s.during second).inScope name = s.inScope name from rfl]
          split_ifs <;> exact .pure rfl
      | «alias» id =>
          simp only [renderWithin, ho.plain.typeArguments]
          exact renderSymbol_matches htable hrender ho rfl rfl hleft hright (fun _ _ _ => .nil) rfl
            .nil
      | nominal id hlength hargs =>
          have hall := Inlines.forall₂_of_zip hlength hargs
          refine renderSymbol_matches htable hrender ho rfl rfl hleft hright (fun _ _ _ => hall)
            (Inlines.omitsArguments hall) (Kin.all (hall.imp fun _ _ h => h.text) ?_ ?_)
          · exact fun arg harg => hleft.part (.argument harg)
          · exact fun arg harg => hright.part (.argument harg)
      | declared hkind homits hlength hargs =>
          refine renderSymbol_matches htable hrender ho rfl rfl hleft hright
            (fun symbol hget halias => absurd halias (hkind symbol hget)) homits
            (Kin.all (Inlines.forall₂_of_zip hlength hargs) ?_ ?_)
          · exact fun arg harg => hleft.part (.argument harg)
          · exact fun arg harg => hright.part (.argument harg)
      | array helement =>
          have hkin := Kin.all (.cons helement .nil)
            (List.forall_mem_singleton.mpr (hleft.part .element))
            (List.forall_mem_singleton.mpr (hright.part .element))
          refine .bind (hrender.representative htable hle hkin) fun _ _ helement => ?_
          exact (hrender helement ho.argument).map fun _ _ hr => by rw [hr]
      | tuple hlength helements =>
          have hwhole : Inlines table notes .text _ _ := .tuple hlength helements
          have hkin := Kin.all (Inlines.forall₂_of_zip hlength helements)
            (fun _ h => hleft.part (.component h)) (fun _ h => hright.part (.component h))
          refine .bind (hrender.representative htable hle hkin) fun _ _ helement => ?_
          refine .bind (hrender helement ⟨⟨rfl, ho.plain.bindings⟩, ho.silent⟩) ?_
          rintro rendered - rfl
          exact .table_bind (.pure (ho.annotated (fun h => by rw [hwhole.eq h]) _))
      | union hlength hmembers =>
          have hwhole : Inlines table notes .text _ _ := .union hlength hmembers
          exact renderUnion_matches hrender ho htable hle hwhole.eq
            (Kin.all (Inlines.forall₂_of_zip hlength hmembers)
              (fun _ h => hleft.part (.alternative h)) (fun _ h => hright.part (.alternative h)))
      | intersection hlength hmembers =>
          have hwhole : Inlines table notes .text _ _ := .intersection hlength hmembers
          exact renderUnion_matches hrender ho htable hle hwhole.eq
            (Kin.all (Inlines.forall₂_of_zip hlength hmembers)
              (fun _ h => hleft.part (.conjunct h)) (fun _ h => hright.part (.conjunct h)))
      | @function _ typeParams params params' result result' hlength hsame hparams hresult =>
          have hwhole : Inlines table notes .text _ _ :=
            .function typeParams hlength hsame hparams hresult
          have hkin : List.Forall₂ (fun p p' => p.SameBut p' ∧
              Kin table notes first second .text p.type p'.type) params params' :=
            Inlines.forall₂_of_zip hlength fun p p' hp => ⟨hsame p p' hp, hparams p p' hp,
              hleft.part (.param ⟨typeParams, params, result⟩ (List.of_mem_zip hp).1),
              hright.part (.param ⟨typeParams, params', result'⟩ (List.of_mem_zip hp).2)⟩
          refine renderFunction_matches hrender ho typeParams hkin ⟨hresult,
            hleft.part (.result ⟨typeParams, params, result⟩),
            hright.part (.result ⟨typeParams, params', result'⟩)⟩ fun h => ?_
          obtain ⟨-, hparams, hresult⟩ := Signature.mk.inj (Ty.function.inj (hwhole.eq h))
          exact ⟨hparams, hresult⟩
      | call name isStatic span hsig ihsig =>
          exact ihsig (hleft.part .call) (hright.part .call) ho
      | shape hcall hcall' hmembers => exact renderShape_matches ho hcall hcall' hmembers
      | @inline place ty body ty' id hnotes hexpands hunion habsent hbody _ =>
          have hfree := hleft.not_mem htable hexpands.mem_symbols
          refine .congr (fun s hs hfirst =>
            exec_renderWithin_expands (hs ▸ hexpands) (hfirst ▸ hfree) ho.plain)
            (fun _ _ _ => rfl) (.unfolding id ?_)
          exact ih (depth' + 1) (by omega) ⟨hbody, hleft.expand htable hexpands, hright⟩ ho
      | @follow place ty ty' body id hnotes hplace hbody hty ihty =>
          -- on the right, the reference is rendered where nothing is being expanded
          have hexpands := expands_of_aliasBody? hbody
          have hreference := Ty.Safe.ofAliasBody? hbody
          refine (ihty hleft hreference ho).trans (.congr (fun s hs hnone =>
            exec_renderWithin_expands (hs ▸ hexpands) (hnone ▸ List.not_mem_nil) ho.plain)
            (fun _ _ _ => rfl) (.unfolding id ?_))
          exact hmono hnotes depth' (depth' + 1) (by omega)
            ⟨Inlines.refl .text _, hreference.expand htable hexpands, hright⟩
            ⟨ho.plain, fun h => by cases h⟩

/-! ## Keys -/

lemma render_matches (htable : table.Regular) : Renderer.Matches table notes render render :=
  have hmono : ∀ depth depth', depth ≤ depth' →
      Renderer.Matches table true (renderWithin depth) (renderWithin depth') :=
    renderWithin_matches htable fun h => by cases h
  fun hkin =>
    renderWithin_matches htable (fun _ => hmono) depthLimit depthLimit (Nat.le_refl _) hkin

/-- **Aliases are transparent.**  Where definitions are regular and nothing is being expanded, a type
that shares no alias with parameters between a reference and its arguments is rendered and keyed
without a report of a recursive alias.  With references replaced by what they stand for, it has the
same key, and the same has happened. -/
theorem render_transparent (s : Session) (htable : s.table.Regular) (hexpanding : s.expanding = [])
    (ty : Ty) (hty : ty.Unshared s.table) :
    (∀ o : RenderOptions, o.Plain → (render ty o).ReportsNoRecursion s) ∧
      (typeKey ty).ReportsNoRecursion s ∧
      ∀ ty', Inlines s.table false .text ty ty' → ty'.Unshared s.table →
        ((typeKey ty).exec s).1 = .error .exhausted ∨
          (typeKey ty').exec s = (typeKey ty).exec s := by
  have hself : Kin s.table true [] [] .text ty ty :=
    ⟨Inlines.refl _ _, .ofUnshared hty, .ofUnshared hty⟩
  have hmatches {notes : Bool} : Renderer.Matches s.table notes render render :=
    fun hkin => render_matches htable hkin
  refine ⟨fun o ho => ?_, ?_, fun ty' h hty' => ?_⟩
  · exact .ofMatches hexpanding (hmatches hself ⟨ho, fun h => by cases h⟩)
  · exact .ofMatches hexpanding (Renderer.Matches.key hmatches hself)
  · exact Work.Matches.same hexpanding
      (Renderer.Matches.key hmatches ⟨h, .ofUnshared hty, .ofUnshared hty'⟩)

/-- Two aliases, and a third one that refers to the second with the first as its argument. -/
theorem render_transparent_counts :
    let table : SymbolTable := ⟨#[
      { name := "Count", kind := .alias, file := 0, path := ⟨["Count"], .type⟩,
        aliased := some (.primitive .number) },
      { name := "Box", kind := .alias, file := 0, path := ⟨["Box"], .type⟩,
        typeParams := ["T"], aliased := some (.array (.param "T")) },
      { name := "Counts", kind := .alias, file := 0, path := ⟨["Counts"], .type⟩,
        aliased := some (.nominal 1 [.alias 0]) }]⟩
    let s := Session.start table .batch .untyped
    table.Regular ∧ Ty.Unshared table (.alias 2) ∧
      Inlines table false .text (.alias 2) (.array (.primitive .number)) ∧
      (typeKey (.alias 2)).ReportsNoRecursion s ∧
      ((typeKey (.alias 2)).exec s).1 = .ok "List<num>" ∧
      (typeKey (.array (.primitive .number))).exec s = (typeKey (.alias 2)).exec s := by
  intro table s
  have huses : ∀ {id other}, table.Uses id other → id = 2 ∧ other < 2 := by
    rintro (_ | _ | _ | id) other ⟨symbol, definition, hget, -, hdefinition, hother⟩
    · obtain rfl := Option.some.inj hget
      obtain rfl := Option.some.inj hdefinition
      cases hother
    · obtain rfl := Option.some.inj hget
      obtain rfl := Option.some.inj hdefinition
      cases hother
    · obtain rfl := Option.some.inj hget
      obtain rfl := Option.some.inj hdefinition
      have hother : other ∈ [1, 0] := hother
      simp only [List.mem_cons, List.not_mem_nil, or_false] at hother
      omega
    · cases hget
  have hcounts : Ty.Unshared table (.nominal 1 [.alias 0]) := by
    refine .ofParts (fun part hpart => ?_) fun id args hself other hother shared _ hshared => ?_
    · cases hpart with
      | argument harg => exact List.mem_singleton.mp harg ▸ .ofReference rfl
    · -- an alias that `Count` leads to is `Count`, which has no parameters
      cases hself
      obtain rfl : other = 0 := List.mem_singleton.mp hother
      rcases hshared.cases_head with rfl | ⟨next, huse, -⟩
      · rintro ⟨symbol, hget, -, hparams⟩
        obtain rfl := Option.some.inj hget
        exact hparams rfl
      · cases (huses huse).1
  have hregular : table.Regular := by
    refine ⟨SymbolTable.acyclic_of_lt fun h => ?_, ?_⟩
    · obtain ⟨rfl, hlt⟩ := huses h
      exact hlt
    · rintro (_ | _ | _ | id) symbol definition hget - hdefinition
      · obtain rfl := Option.some.inj hget
        exact Option.some.inj hdefinition ▸ .ofSymbols rfl
      · obtain rfl := Option.some.inj hget
        exact Option.some.inj hdefinition ▸ .ofSymbols rfl
      · obtain rfl := Option.some.inj hget
        exact Option.some.inj hdefinition ▸ hcounts
      · cases hget
  have hty : Ty.Unshared table (.alias 2) := .ofReference rfl
  have hinlines : Inlines table false .text (.alias 2) (.array (.primitive .number)) := by
    refine .inline rfl ⟨[], _, _, rfl, rfl, rfl, rfl, rfl⟩ (by simp) (by simp) ?_
    refine .inline rfl ⟨_, _, _, rfl, rfl, rfl, rfl, rfl⟩ (by simp) (by simp) ?_
    exact .array (.inline rfl ⟨[], _, _, rfl, rfl, rfl, rfl, rfl⟩ (fun _ h => by cases h) (by simp)
      (.primitive .number))
  have hkey : ((typeKey (.alias 2)).exec s).1.toOption = some "List<num>" := by decide +kernel
  obtain ⟨-, hsilent, hsame⟩ := render_transparent s hregular rfl (.alias 2) hty
  rcases hout : ((typeKey (.alias 2)).exec s).1 with failure | key
  · rw [hout] at hkey
    cases hkey
  · rw [hout] at hkey
    refine ⟨hregular, hty, hinlines, hsilent, congrArg _ (Option.some.inj hkey), ?_⟩
    refine (hsame _ hinlines (.ofSymbols rfl)).resolve_left fun hexhausted => ?_
    cases hout.symm.trans hexhausted

set_option maxRecDepth 2000 in
/-- An alias in an argument of its own: no definition leads back to it, but it is reported as
recursive, and its definition has another key. -/
theorem typeKey_box_of_box :
    let table : SymbolTable := ⟨#[
      { name := "Box", kind := .alias, file := 0, path := ⟨["Box"], .type⟩,
        typeParams := ["T"], aliased := some (.array (.param "T")) }]⟩
    let s := Session.start table .batch .untyped
    let box (ty : Ty) : Ty := .nominal 0 [ty]
    let number : Ty := .primitive .number
    let text := "@JS()\nlibrary a;\n\nimport 'package:js/js.dart';\n\n@JS()\n" ++
      "external List<dynamic /*Box*/> get x;\n\n" ++
      "@JS()\nexternal set x(List<dynamic /*Box*/> value);\n"
    (∀ id, ¬ TransGen table.Uses id id) ∧ s.expanding = [] ∧
      table.Expands (box (box number)) 0 (.array (box number)) ∧
      (∃ d ∈ ((typeKey (box (box number))).exec s).2.log.entries, table.ReportsRecursion d) ∧
      ((typeKey (box (box number))).exec s).1.toOption = some "List<dynamic>" ∧
      ((typeKey (.array (box number))).exec s).1.toOption = some "List<List<num>>" ∧
      generate [⟨"a", "type Box<T> = T[]; var x: Box<Box<number>>;"⟩] {} = .ok
        [⟨"a", text, [⟨"a", .unsupported ⟨23, 42⟩ "recursive type alias `Box`"⟩], none⟩] := by
  intro table s box number text
  have huses : ∀ {id other}, ¬ table.Uses id other := by
    rintro (_ | id) other ⟨symbol, definition, hget, -, hdefinition, hother⟩
    · obtain rfl := Option.some.inj hget
      obtain rfl := Option.some.inj hdefinition
      cases hother
    · cases hget
  have hlog : ((typeKey (box (box number))).exec s).2.log.entries =
      [.unsupported Span.none ("recursive type alias `" ++ "Box" ++ "`")] := by
    decide +kernel
  refine ⟨SymbolTable.acyclic_of_lt fun h => (huses h).elim, rfl,
    ⟨_, _, _, rfl, rfl, rfl, rfl, rfl⟩,
    ⟨_, hlog ▸ List.mem_singleton_self _, 0, _, _, rfl, rfl, rfl⟩,
    by decide +kernel, by decide +kernel, ?_⟩
  let file : SourceFile := ⟨"a", "type Box<T> = T[]; var x: Box<Box<number>>;"⟩
  let program : Source.Program := ⟨[
    .declaration false (.alias ⟨⟨0, 18⟩, "Box", [⟨"T", []⟩],
      ⟨⟨14, 17⟩, .array ⟨⟨14, 15⟩, .reference ["T"] []⟩⟩⟩),
    .declaration false (.variables .var [⟨⟨23, 42⟩, .name "x",
      some ⟨⟨26, 42⟩, .reference ["Box"]
        [⟨⟨30, 41⟩, .reference ["Box"] [⟨⟨34, 40⟩, .keyword .number⟩]⟩]⟩, none⟩])]⟩
  have hread : [file].mapM SourceFile.read = .ok [program] := by
    have hfile : file.read = .ok program :=
      SourceFile.read_of_parse (by cbv) (by cbv) (by decide +kernel)
    simp only [List.mapM_cons, List.mapM_nil, hfile]
    rfl
  have hstem : moduleStem file.path = "a" := by
    have hfile : fileName file.path = "a" := by cbv
    rw [moduleStem, hfile]
    decide
  exact generate_of_placed hread (placeFiles_singleton file program hstem) (by decide +kernel)

end Interop
