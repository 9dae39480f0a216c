import Interop.Proofs.Phrases.Edges

/-!
# Options for comments

Two options only say where notes are written.  Types are told apart without notes, so a rendering
with other such options goes the same way: it asks for the same names, reports the same and fails in
the same way.  The texts may differ in their comments, but only where they have parts, and a text
with parts names a type.

* `RenderOptions.CommentsAside` — options that differ in nothing else.
* `Work.Agrees` — two computations that do the same, and whose results are related.
* `Rendered.Alike` — the same text, or two texts that name types.
* **`renderWithin_ignoresComments`** — rendering with options that differ in comments only.
-/

namespace Interop

open Work

/-! ## Computations that do the same -/

/-- Results that are related, or the same failure. -/
inductive AgreeingOutcomes {α β : Type} (Q : α → β → Prop) :
    Except Failure α → Except Failure β → Prop
  | ok {a : α} {b : β} (related : Q a b) : AgreeingOutcomes Q (.ok a) (.ok b)
  | error (failure : Failure) : AgreeingOutcomes Q (.error failure) (.error failure)

namespace Work

variable {α β γ δ ε : Type}

/-- **Two computations that do the same to every session**, fail in the same way, and otherwise have
results that are related. -/
def Agrees (Q : α → β → Prop) (w : Work α) (w' : Work β) : Prop :=
  ∀ s, AgreeingOutcomes Q (w.exec s).1 (w'.exec s).1 ∧ (w'.exec s).2 = (w.exec s).2

namespace Agrees

/-- Both succeed and leave the same session, or both fail. -/
lemma cases {Q : α → β → Prop} {w : Work α} {w' : Work β} (h : Agrees Q w w') (s : Session) :
    (∃ failure t, w.exec s = (.error failure, t) ∧ w'.exec s = (.error failure, t)) ∨
      ∃ a b t, w.exec s = (.ok a, t) ∧ w'.exec s = (.ok b, t) ∧ Q a b := by
  obtain ⟨houtcome, hsame⟩ := h s
  rcases hrun : w.exec s with ⟨out, t⟩
  rcases hrun' : w'.exec s with ⟨out', t'⟩
  rw [hrun, hrun'] at houtcome hsame
  obtain rfl : t' = t := hsame
  cases houtcome with
  | ok hab => exact Or.inr ⟨_, _, _, rfl, rfl, hab⟩
  | error failure => exact Or.inl ⟨failure, _, rfl, rfl⟩

lemma pure {Q : α → β → Prop} {a : α} {b : β} (h : Q a b) :
    Agrees Q (Pure.pure a : Work α) (Pure.pure b) :=
  fun _ => ⟨.ok h, rfl⟩

lemma throw {Q : α → β → Prop} (failure : Failure) :
    Agrees Q (MonadExcept.throw failure : Work α) (MonadExcept.throw failure : Work β) :=
  fun _ => ⟨.error failure, rfl⟩

/-- Composition. -/
lemma bind {P : α → β → Prop} {Q : γ → δ → Prop} {w : Work α} {w' : Work β} {k : α → Work γ}
    {k' : β → Work δ} (hw : Agrees P w w') (hk : ∀ a b, P a b → Agrees Q (k a) (k' b)) :
    Agrees Q (w >>= k) (w' >>= k') := by
  intro s
  obtain ⟨houtcome, hsame⟩ := hw s
  rw [exec_bind, exec_bind]
  rcases hrun : w.exec s with ⟨out, t⟩
  rcases hrun' : w'.exec s with ⟨out', t'⟩
  rw [hrun, hrun'] at houtcome hsame
  obtain rfl : t' = t := hsame
  cases houtcome with
  | ok hab => exact hk _ _ hab t'
  | error failure => exact ⟨.error failure, rfl⟩

/-- Both begin with the same. -/
lemma same_bind {Q : γ → δ → Prop} {w : Work ε} {k : ε → Work γ} {k' : ε → Work δ}
    (hk : ∀ a, Agrees Q (k a) (k' a)) : Agrees Q (w >>= k) (w >>= k') := by
  intro s
  rw [exec_bind, exec_bind]
  rcases w.exec s with ⟨failure | a, t⟩
  · exact ⟨.error failure, rfl⟩
  · exact hk a t

lemma within {Q : α → β → Prop} {enter leave : Session → Session} {w : Work α} {w' : Work β}
    (h : Agrees Q w w') : Agrees Q (Work.within enter leave w) (Work.within enter leave w') := by
  intro s
  obtain ⟨houtcome, hsame⟩ := h (enter s)
  rw [exec_within, exec_within]
  exact ⟨houtcome, congrArg leave hsame⟩

lemma mapM {Q : β → γ → Prop} {f : α → Work β} {g : α → Work γ} : ∀ {xs : List α},
    (∀ x ∈ xs, Agrees Q (f x) (g x)) → Agrees (List.Forall₂ Q) (xs.mapM f) (xs.mapM g)
  | [], _ => by
      simp only [List.mapM_nil]
      exact pure .nil
  | x :: xs, h => by
      simp only [List.mapM_cons]
      refine bind (h x List.mem_cons_self) fun b c hbc => ?_
      refine bind (mapM fun y hy => h y (List.mem_cons_of_mem _ hy)) fun bs cs hbcs => ?_
      exact pure (.cons hbc hbcs)

lemma foldlM {Q : β → γ → Prop} {f : β → α → Work β} {g : γ → α → Work γ} : ∀ {xs : List α} {b : β}
    {c : γ}, Q b c → (∀ b c, Q b c → ∀ x ∈ xs, Agrees Q (f b x) (g c x)) →
      Agrees Q (xs.foldlM f b) (xs.foldlM g c)
  | [], _, _, hbc, _ => pure hbc
  | x :: xs, b, c, hbc, h => by
      rw [List.foldlM_cons, List.foldlM_cons]
      refine bind (h b c hbc x List.mem_cons_self) fun b' c' hbc' => ?_
      exact foldlM hbc' fun b c hbc y hy => h b c hbc y (List.mem_cons_of_mem _ hy)

/-- Two computations that do the same with the same results are the same. -/
lemma eq {w w' : Work α} (h : Agrees Eq w w') : w = w' := by
  funext s
  obtain ⟨houtcome, hsame⟩ := h s
  have hfirst : (w.exec s).1 = (w'.exec s).1 := by
    cases hw : (w.exec s).1 with
    | ok a =>
        rw [hw] at houtcome
        cases hw' : (w'.exec s).1 with
        | ok b =>
            rw [hw'] at houtcome
            cases houtcome with
            | ok h => rw [h]
        | error failure =>
            rw [hw'] at houtcome
            cases houtcome
    | error failure =>
        rw [hw] at houtcome
        cases hw' : (w'.exec s).1 with
        | ok b =>
            rw [hw'] at houtcome
            cases houtcome
        | error failure' =>
            rw [hw'] at houtcome
            cases houtcome
            rfl
  exact Prod.ext hfirst hsame.symm

end Agrees

end Work

/-! ## Options and rendered types -/

/-- **Options that differ in nothing but where notes are written.** -/
structure RenderOptions.CommentsAside (o o' : RenderOptions) : Prop where
  insideTypeArgument : o.insideTypeArgument = o'.insideTypeArgument
  typeArguments : o.typeArguments = o'.typeArguments
  bindings : o.bindings = o'.bindings
  policy : o.policy = o'.policy

namespace RenderOptions.CommentsAside

variable {o o' : RenderOptions} (h : o.CommentsAside o')
include h

lemma nested : o.nested.CommentsAside o'.nested :=
  ⟨rfl, rfl, h.bindings, h.policy⟩

lemma argument : o.argument.CommentsAside o'.argument :=
  ⟨rfl, rfl, h.bindings, h.policy⟩

lemma display : o.display.CommentsAside o'.display :=
  ⟨h.insideTypeArgument, rfl, h.bindings, h.policy⟩

end RenderOptions.CommentsAside

namespace Rendered

/-- Rendered types that have the same text, or that both name a type. -/
def Alike (r r' : Rendered) : Prop :=
  r.text = r'.text ∨ r.isConcrete = true ∧ r'.isConcrete = true

variable {r r' : Rendered}

lemma Alike.isConcrete (h : r.Alike r') : r.isConcrete = r'.isConcrete := by
  rcases h with htext | ⟨hr, hr'⟩
  · simp only [Rendered.isConcrete, htext]
  · rw [hr, hr']

lemma alike_annotated (text note : String) (o o' : RenderOptions) :
    (annotated text note o).Alike (annotated text note o') :=
  Or.inl rfl

lemma isConcrete_iff :
    r.isConcrete = true ↔ r.text ≠ untypedText ∧ r.text ≠ absentText ∧ r.text ≠ nullText := by
  simp only [Rendered.isConcrete, Bool.and_eq_true, bne_iff_ne, and_assoc]

/-- A text with a character that is in none of the texts for no type and for unknown types. -/
lemma isConcrete_of_mem {c : Char} (hc : c ∈ r.text.toList) (hother : c ∉ untypedText.toList ∧
    c ∉ absentText.toList ∧ c ∉ nullText.toList) : r.isConcrete = true := by
  refine isConcrete_iff.mpr ⟨fun h => ?_, fun h => ?_, fun h => ?_⟩
  · exact hother.1 (h ▸ hc)
  · exact hother.2.1 (h ▸ hc)
  · exact hother.2.2 (h ▸ hc)

/-- Texts with type arguments name types. -/
lemma alike_of_angle (h : '<' ∈ r.text.toList) (h' : '<' ∈ r'.text.toList) : r.Alike r' :=
  Or.inr ⟨isConcrete_of_mem h (by decide), isConcrete_of_mem h' (by decide)⟩

/-- The texts of function types name types. -/
lemma alike_of_blank (h : ' ' ∈ r.text.toList) (h' : ' ' ∈ r'.text.toList) : r.Alike r' :=
  Or.inr ⟨isConcrete_of_mem h (by decide), isConcrete_of_mem h' (by decide)⟩

end Rendered

/-! ## Forms of types -/

/-- A way to render types that goes the same way whatever options for comments are set. -/
def Renderer.IgnoresComments (render : Renderer) : Prop :=
  ∀ ty (o o' : RenderOptions), o.CommentsAside o' →
    Agrees Rendered.Alike (render ty o) (render ty o')

section

variable {render : Renderer} (h : render.IgnoresComments) {o o' : RenderOptions}
  (ho : o.CommentsAside o')
include ho

lemma renderPrimitive_alike (kind : Primitive) :
    (renderPrimitive kind o).Alike (renderPrimitive kind o') := by
  refine Or.inl ?_
  cases kind <;> simp only [renderPrimitive, Rendered.plain, Rendered.annotated,
    ho.insideTypeArgument]

omit ho in
lemma renderLiteral_alike (kind : LiteralKind) (text : String) :
    (renderLiteral kind text o).Alike (renderLiteral kind text o') :=
  Rendered.alike_annotated _ _ _ _

include h

/-- The texts of a signature both have a blank, whatever stands around it. -/
lemma renderSignature_agrees (sig : Signature) :
    Agrees (fun text text' => ' ' ∈ text.toList ∧ ' ' ∈ text'.toList)
      (renderSignature render o sig) (renderSignature render o' sig) := by
  refine .bind (h sig.result o o' ho) fun result result' _ => ?_
  refine .bind (.mapM (Q := fun _ _ => True) fun p _ => ?_) fun params params' _ => .pure ?_
  · exact .bind (h p.type o o' ho) fun _ _ _ => .pure trivial
  · simp [String.toList_append]

lemma renderFunction_agrees (sig : Signature) :
    Agrees Rendered.Alike (renderFunction render sig o) (renderFunction render sig o') := by
  unfold renderFunction
  split_ifs
  · exact .same_bind fun table => .pure (Rendered.alike_annotated _ _ _ _)
  · refine .bind (.within (renderSignature_agrees h ho.nested sig)) fun text text' htexts => ?_
    exact .pure (Rendered.alike_of_blank htexts.1 htexts.2)

lemma renderAlias_agrees (id : Nat) (symbol : Symbol) (args : List Ty) :
    Agrees Rendered.Alike (renderAlias render id symbol args o)
      (renderAlias render id symbol args o') := by
  unfold renderAlias
  cases symbol.aliased with
  | none => exact .pure (Rendered.alike_annotated _ _ _ _)
  | some body =>
      refine .same_bind fun s => ?_
      split_ifs
      · exact .same_bind fun _ => .pure (Rendered.alike_annotated _ _ _ _)
      · exact .within (h _ _ _ ⟨ho.insideTypeArgument, rfl, ho.bindings, ho.policy⟩)
      · exact .within (h _ _ _ ⟨ho.insideTypeArgument, rfl, ho.bindings, ho.policy⟩)

lemma renderNominal_agrees (id : Nat) (symbol : Symbol) (args : List Ty) :
    Agrees Rendered.Alike (renderNominal render id symbol args o)
      (renderNominal render id symbol args o') := by
  refine .same_bind fun name => ?_
  cases name with
  | none => exact .pure (Rendered.alike_annotated _ _ _ _)
  | some name =>
      dsimp only
      split_ifs
      · exact .pure (Or.inl rfl)
      · refine .bind (.mapM (Q := fun _ _ => True) fun arg _ => ?_) fun texts texts' htexts => ?_
        · exact .bind (h arg _ _ ho.argument) fun _ _ _ => .pure trivial
        · refine .pure ?_
          cases htexts with
          | nil => exact Or.inl rfl
          | cons _ _ =>
              exact Rendered.alike_of_angle
                (by simp [Rendered.plain, inAngles, String.toList_append])
                (by simp [Rendered.plain, inAngles, String.toList_append])

lemma renderSymbol_agrees (id : Nat) (args : List Ty) :
    Agrees Rendered.Alike (renderSymbol render id args o) (renderSymbol render id args o') := by
  refine .same_bind fun table => ?_
  cases table.get? id with
  | none => exact .same_bind fun _ => .pure (Rendered.alike_annotated _ _ _ _)
  | some symbol =>
      dsimp only
      cases symbol.kind with
      | «alias» => exact renderAlias_agrees h ho id symbol args
      | klass | interface | enum => exact renderNominal_agrees h ho id symbol args
      | function | «variable» | typeParameter | nameSpace =>
          exact .same_bind fun _ => .pure (Rendered.alike_annotated _ _ _ _)

lemma renderShape_agrees (members : List Member) :
    Agrees Rendered.Alike (renderShape render members o) (renderShape render members o') := by
  unfold renderShape
  split
  · exact renderFunction_agrees h ho _
  · exact .same_bind fun table => .pure (Rendered.alike_annotated _ _ _ _)

/-- **The members of a union that can be shown are the same**, however they are displayed. -/
lemma Renderer.IgnoresComments.concrete (tys : List Ty) :
    render.concrete o tys = render.concrete o' tys := by
  refine congrArg (fun f : Ty → Work Bool => tys.filterM f) (funext fun member => ?_)
  exact Agrees.eq (.bind (.within (h member o o' ho)) fun _ _ hr => .pure hr.isConcrete)

lemma renderUnion_agrees (steps : Nat) (ty : Ty) (members : List Ty) :
    Agrees Rendered.Alike (renderUnion render steps ty members o)
      (renderUnion render steps ty members o') := by
  have hend : ∀ text text' : String,
      (Rendered.plain text).Alike (.plain text') → Agrees Rendered.Alike
        (if members.length > 1 then do return Rendered.annotated text (ty.text (← Work.table)) o
          else return Rendered.plain text)
        (if members.length > 1 then do return Rendered.annotated text' (ty.text (← Work.table)) o'
          else return Rendered.plain text') := by
    intro text text' halike
    split_ifs
    · exact .same_bind fun table => .pure halike
    · exact .pure halike
  refine .same_bind fun merged => ?_
  change Agrees _ (render.concrete o.display merged.types >>= _)
    (render.concrete o'.display merged.types >>= _)
  rw [h.concrete ho.display merged.types]
  refine .same_bind fun concrete => .same_bind fun s => ?_
  have hpolicy : o.policy.getD s.policy = o'.policy.getD s.policy := by rw [ho.policy]
  dsimp only
  rw [hpolicy]
  cases shownMember (o'.policy.getD s.policy) concrete with
  | none => exact .same_bind fun text => hend text text (Or.inl rfl)
  | some member =>
      refine .bind (h member _ _ ho.display) fun r r' halike => ?_
      exact .bind (P := fun text text' => (Rendered.plain text).Alike (.plain text'))
        (.pure halike) hend

end

/-! ## All forms -/

/-- **Comments are cosmetic.**  With options that differ in comments only, rendering does the same to
every session, fails in the same way, and names a type or does not. -/
theorem renderWithin_ignoresComments (depth : Nat) : (renderWithin depth).IgnoresComments := by
  induction depth with
  | zero => exact fun ty o o' ho => .throw _
  | succ depth ih =>
      intro ty o o' ho
      cases ty with
      | primitive kind => exact .pure (renderPrimitive_alike ho kind)
      | nominal symbol args => exact renderSymbol_agrees ih ho symbol args
      | «alias» symbol =>
          simp only [renderWithin, ho.typeArguments]
          exact renderSymbol_agrees ih ho symbol _
      | function sig => exact renderFunction_agrees ih ho sig
      | array element =>
          refine .same_bind fun element => .bind (ih element _ _ ho.argument) fun r r' _ => ?_
          exact .pure (Rendered.alike_of_angle (by simp [Rendered.plain, String.toList_append])
            (by simp [Rendered.plain, String.toList_append]))
      | tuple elements =>
          refine .same_bind fun element => .bind (ih element _ _ ?_) fun r r' _ => ?_
          · exact ⟨rfl, rfl, ho.bindings, ho.policy⟩
          · refine .same_bind fun table => .pure ?_
            exact Rendered.alike_of_angle (by simp [Rendered.annotated, String.toList_append])
              (by simp [Rendered.annotated, String.toList_append])
      | shape members => exact renderShape_agrees ih ho members
      | param name =>
          simp only [renderWithin, ho.bindings]
          cases o'.bindings.bind (·.lookup name) with
          | some bound => exact ih bound o o' ho
          | none =>
              refine .same_bind fun s => ?_
              split_ifs
              · exact .pure (Or.inl rfl)
              · exact .pure (Rendered.alike_annotated _ _ _ _)
      | literal kind text => exact .pure (renderLiteral_alike kind text)
      | union members => exact renderUnion_agrees ih ho depth _ members
      | intersection members => exact renderUnion_agrees ih ho depth _ members
      | raw text => exact .pure (Rendered.alike_annotated _ _ _ _)

end Interop
