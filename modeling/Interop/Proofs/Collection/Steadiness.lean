import Interop.Proofs.Collection.Elements

/-!
# Results apart from notes

What is lowered does not depend on what was noted before it, so the elements of a body can be left
out or followed by others without changing what the rest becomes.

* `Lower.value`, `Lower.Steady` — what a computation gives, whatever was noted before.
* **`TypeNode.lower_steady`, `MemberNode.lowerOnto_steady`, `lowerElementOnto_steady`** — types and
  the elements of bodies.
-/

namespace Interop

open Source

/-! ## Computations -/

namespace Lower

variable {α β : Type} {scope : LoweringScope}

/-- What a computation gives. -/
def value (scope : LoweringScope) (w : Lower α) : α :=
  ((w scope).run []).1

/-- **A computation whose result does not depend on the notes** that are there already. -/
def Steady (scope : LoweringScope) (w : Lower α) : Prop :=
  w.Yields scope (· = w.value scope)

lemma value_bind {w : Lower α} {k : α → Lower β} (hk : ∀ a, (k a).Steady scope) :
    (w >>= k).value scope = (k (w.value scope)).value scope :=
  hk _ _

namespace Steady

lemma pure (a : α) : Steady scope (Pure.pure a) :=
  fun _ => rfl

lemma bind {w : Lower α} {k : α → Lower β} (hw : w.Steady scope) (hk : ∀ a, (k a).Steady scope) :
    (w >>= k).Steady scope := by
  intro before
  have hrun : (((w >>= k) scope).run before).1 =
      ((k ((w scope).run before).1 scope).run ((w scope).run before).2).1 := rfl
  rw [hrun, hw before, hk _ _, value_bind hk]

lemma map {w : Lower α} (hw : w.Steady scope) (f : α → β) :
    (w >>= fun a => Pure.pure (f a)).Steady scope :=
  hw.bind fun a => pure (f a)

lemma note (d : Diagnostic) : (Lower.note d).Steady scope :=
  fun _ => rfl

lemma read_bind {k : LoweringScope → Lower α} (hk : (k scope).Steady scope) :
    (read >>= k).Steady scope :=
  hk

lemma declaring {names : List String} {w : Lower α}
    (hw : w.Steady { scope with typeParams := names ++ scope.typeParams }) :
    (Lower.declaring names w).Steady scope :=
  hw

lemma unsupported (span : Span) (construct : String) :
    (Lower.unsupported span construct).Steady scope :=
  (note _).bind fun _ => read_bind (pure _)

end Steady

end Lower

/-! ## Types and bodies -/

open Lower (Steady)

lemma lowerName_steady (scope : LoweringScope) (name : List String) (args : List Ty) (span : Span) :
    (lowerName name args span).Steady scope := by
  refine .read_bind ?_
  cases scope.lookupType name with
  | some id => exact .pure _
  | none =>
      dsimp only
      split_ifs
      · exact .pure _
      · exact (Steady.note _).bind fun _ => .pure _

namespace Source

mutual

/-- **What type syntax stands for** does not depend on notes. -/
lemma TypeNode.lower_steady : ∀ (node : TypeNode) (scope : LoweringScope), node.lower.Steady scope
  | ⟨span, form⟩, scope => form.lower_steady span scope

lemma TypeForm.lower_steady (span : Span) : ∀ (form : TypeForm) (scope : LoweringScope),
    (form.lower span).Steady scope
  | .keyword _, _ => .pure _
  | .this, scope => .read_bind <| by
      cases scope.this with
      | none => exact .unsupported _ _
      | some type => exact .pure _
  | .reference name args, scope => .read_bind <| by
      have hname : (do lowerName name (← TypeNode.lowerAll args) span).Steady scope :=
        (TypeNode.lowerAll_steady args scope).bind fun _ => lowerName_steady scope name _ span
      cases scope.isTypeParam name with
      | false => rcases name with _ | ⟨_, _ | _⟩ <;> exact hname
      | true =>
          rcases name with _ | ⟨_, _ | _⟩
          · exact hname
          · exact .pure _
          · exact hname
  | .array element, scope => (element.lower_steady scope).map _
  | .tuple elements, scope => (TypeNode.lowerAll_steady elements scope).map _
  | .union members, scope => (TypeNode.lowerAll_steady members scope).map _
  | .intersection members, scope => (TypeNode.lowerAll_steady members scope).map _
  | .function signature, scope => (signature.lower_steady scope).map _
  | .shape members, scope => (MemberNode.lowerAllOnto_steady members [] scope).map _
  | .literal _, _ => .read_bind (.pure _)
  | .readonly inner, scope => inner.lower_steady scope
  | .predicate _, _ => .pure _
  | .unsupported _ _, _ => .unsupported _ _

lemma TypeNode.lowerAll_steady : ∀ (nodes : List TypeNode) (scope : LoweringScope),
    (TypeNode.lowerAll nodes).Steady scope
  | [], _ => .pure _
  | node :: rest, scope => (node.lower_steady scope).bind fun _ =>
      (TypeNode.lowerAll_steady rest scope).map _

lemma TypeNode.lowerOption_steady : ∀ (node : Option TypeNode) (scope : LoweringScope),
    (TypeNode.lowerOption node).Steady scope
  | none, _ => .pure _
  | some node, scope => node.lower_steady scope

lemma SignatureNode.lower_steady : ∀ (node : SignatureNode) (scope : LoweringScope),
    node.lower.Steady scope
  | ⟨_, params, rest, result⟩, _ => .declaring <|
      (ParamNode.lowerAll_steady 0 params _).bind fun _ =>
        (ParamNode.lowerRest_steady rest _).bind fun _ =>
          (TypeNode.lowerOption_steady result _).map _

lemma ParamNode.lowerAll_steady (index : Nat) : ∀ (nodes : List ParamNode) (scope : LoweringScope),
    (ParamNode.lowerAll index nodes).Steady scope
  | [], _ => .pure _
  | ⟨_, type, _, _, _⟩ :: more, scope => (TypeNode.lowerOption_steady type scope).bind fun _ =>
      (ParamNode.lowerAll_steady (index + 1) more scope).map _

lemma ParamNode.lowerRest_steady : ∀ (node : Option ParamNode) (scope : LoweringScope),
    (ParamNode.lowerRest node).Steady scope
  | none, _ => .pure _
  | some ⟨_, none, _, _, _⟩, _ => .pure _
  | some ⟨_, some type, _, _, _⟩, scope => (type.lower_steady scope).map _

lemma ParamNode.lowerFirst_steady : ∀ (nodes : List ParamNode) (scope : LoweringScope),
    (ParamNode.lowerFirst nodes).Steady scope
  | [], _ => .pure _
  | ⟨_, type, _, _, _⟩ :: _, scope => TypeNode.lowerOption_steady type scope

lemma SignatureNode.lowerAccessor_steady (isSetter : Bool) : ∀ (node : SignatureNode)
    (scope : LoweringScope), (node.lowerAccessor isSetter).Steady scope
  | ⟨_, params, _, result⟩, scope => by
      cases isSetter with
      | true => exact ParamNode.lowerFirst_steady params scope
      | false => exact TypeNode.lowerOption_steady result scope

lemma MemberNode.lowerOnto_steady : ∀ (node : MemberNode) (members : List Member)
    (scope : LoweringScope), (node.lowerOnto members).Steady scope
  | .property _ key _ _ type, _, scope => by
      simp only [MemberNode.lowerOnto]
      cases key.name? with
      | none => exact (Steady.note _).map _
      | some name => exact (TypeNode.lowerOption_steady type scope).map _
  | .method _ key kind _ signature, _, scope => by
      simp only [MemberNode.lowerOnto]
      cases key.name? with
      | none => exact (Steady.note _).map _
      | some name =>
          cases kind with
          | method => exact (signature.lower_steady scope).map _
          | getter => exact (signature.lowerAccessor_steady false scope).map _
          | setter => exact (signature.lowerAccessor_steady true scope).map _
  | .call _ signature, _, scope => (signature.lower_steady scope).map _
  | .construct _ signature, _, scope => (signature.lower_steady scope).map _
  | .index _ _ _ key value, _, scope =>
      (key.lower_steady scope).bind fun _ => (value.lower_steady scope).map _

lemma MemberNode.lowerAllOnto_steady : ∀ (nodes : List MemberNode) (members : List Member)
    (scope : LoweringScope), (MemberNode.lowerAllOnto members nodes).Steady scope
  | [], _, _ => .pure _
  | node :: rest, members, scope => (node.lowerOnto_steady members scope).bind fun _ =>
      MemberNode.lowerAllOnto_steady rest _ scope

end

end Source

lemma lowerElementOnto_steady (self : Ty) (members : List Member) (element : ClassElement)
    (scope : LoweringScope) : (lowerElementOnto self members element).Steady scope := by
  cases element with
  | method span key kind isStatic optional isPrivate f =>
      simp only [lowerElementOnto]
      cases isPrivate with
      | true => exact .pure _
      | false =>
          cases key.name? with
          | none => exact .pure _
          | some name =>
              cases kind with
              | constructor => exact (SignatureNode.lower_steady _ _).map _
              | method kind =>
                  cases kind with
                  | method => exact (f.signature.lower_steady scope).map _
                  | getter => exact (f.signature.lowerAccessor_steady false scope).map _
                  | setter => exact (f.signature.lowerAccessor_steady true scope).map _
  | property span key isStatic optional readonly isPrivate type value =>
      simp only [lowerElementOnto]
      cases isPrivate with
      | true => exact .pure _
      | false =>
          cases key.name? with
          | none => exact .pure _
          | some name => exact (TypeNode.lowerOption_steady type scope).map _
  | index m => exact m.lowerOnto_steady members scope
  | accessor => exact .pure _
  | initializer => exact .pure _

end Interop
