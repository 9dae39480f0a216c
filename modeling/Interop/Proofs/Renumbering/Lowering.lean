import Interop.Collection.Lowering
import Interop.Proofs.Renumbering.Tables

/-!
# Lowering does not depend on numbers

The same syntax, lowered in scopes that correspond, becomes types that correspond, and the same is
noted.  The symbols in a lowered type all come from looking up names of types, or from the type of
the object itself, so each is there and names a type.

* `Renumbering.Scopes` — scopes that correspond.
* `Renumbering.Lowers` — two computations that lower the same; `Renumbering.Lowers.bind`, … are its
  rules.
* **`lower_type`** — a type; the lemmas around it are about signatures, parameters and members.
-/

namespace Interop

open Source

namespace Renumbering

/-- **Scopes that correspond.**  Names of types lead to symbols that correspond, and these are
there. -/
structure Scopes (ρ : Renumbering) (t : SymbolTable) (scope scope' : LoweringScope) : Prop where
  lookup : ∀ name, scope'.table.lookup name scope'.file SymbolKind.isType =
    (scope.table.lookup name scope.file SymbolKind.isType).map ρ.symbol
  known : ∀ name id, scope.table.lookup name scope.file SymbolKind.isType = some id →
    t.IsTypeSymbol id
  source : scope'.source = scope.source
  names : scope'.names = scope.names
  typeParams : scope'.typeParams = scope.typeParams
  this : Option.Rel (ρ.Types t) scope.this scope'.this

/-- **Computations that lower the same**: what they give corresponds, and they note the same. -/
def Lowers (ρ : Renumbering) (t : SymbolTable) {α β : Type} (w : Lower α) (w' : Lower β)
    (Q : α → β → Prop) : Prop :=
  ∀ scope scope', ρ.Scopes t scope scope' → ∀ notes,
    Q ((w scope).run notes).1 ((w' scope').run notes).1 ∧
      ((w' scope').run notes).2 = ((w scope).run notes).2

variable {ρ : Renumbering} {t : SymbolTable} {α β γ δ : Type}

/-! ## Names -/

section

variable {scope scope' : LoweringScope} (h : ρ.Scopes t scope scope')
include h

lemma Scopes.isTypeParam (name : List String) :
    scope'.isTypeParam name = scope.isTypeParam name := by
  unfold LoweringScope.isTypeParam
  split <;> simp only [h.typeParams]

/-- The namespaces around a declaration are tried in the same order in both. -/
lemma Scopes.lookupType (name : List String) :
    scope'.lookupType name = (scope.lookupType name).map ρ.symbol := by
  simp only [LoweringScope.lookupType, h.names, h.lookup]
  induction (List.range (scope.names.length + 1)).reverse with
  | nil => rfl
  | cons depth rest ih =>
      rw [List.findSome?_cons, List.findSome?_cons, ih]
      cases scope.table.lookup (scope.names.take depth ++ name) scope.file SymbolKind.isType <;> rfl

lemma Scopes.lookupType_known {name : List String} {id : Nat}
    (hid : scope.lookupType name = some id) : t.IsTypeSymbol id := by
  obtain ⟨depth, -, hdepth⟩ := List.exists_of_findSome?_eq_some hid
  exact h.known _ id hdepth

lemma Scopes.declaring (names : List String) : ρ.Scopes t
    { scope with typeParams := names ++ scope.typeParams }
    { scope' with typeParams := names ++ scope'.typeParams } :=
  { h with typeParams := congrArg (names ++ ·) h.typeParams }

end

/-! ## One after another -/

namespace Lowers

lemma pure {Q : α → β → Prop} {a : α} {b : β} (h : Q a b) :
    ρ.Lowers t (Pure.pure a) (Pure.pure b) Q :=
  fun _ _ _ _ => ⟨h, rfl⟩

lemma bind {P : α → β → Prop} {Q : γ → δ → Prop} {w : Lower α} {w' : Lower β} {k : α → Lower γ}
    {k' : β → Lower δ} (hw : ρ.Lowers t w w' P) (hk : ∀ a b, P a b → ρ.Lowers t (k a) (k' b) Q) :
    ρ.Lowers t (w >>= k) (w' >>= k') Q := by
  intro scope scope' h notes
  obtain ⟨hab, hnotes⟩ := hw scope scope' h notes
  have hleft : ((w >>= k) scope).run notes =
      (k ((w scope).run notes).1 scope).run ((w scope).run notes).2 := rfl
  have hright : ((w' >>= k') scope').run notes =
      (k' ((w' scope').run notes).1 scope').run ((w' scope').run notes).2 := rfl
  rw [hleft, hright, hnotes]
  exact hk _ _ hab scope scope' h _

lemma map {P : α → β → Prop} {Q : γ → δ → Prop} {w : Lower α} {w' : Lower β} {f : α → γ} {f' : β → δ}
    (hw : ρ.Lowers t w w' P) (h : ∀ a b, P a b → Q (f a) (f' b)) :
    ρ.Lowers t (w >>= fun a => Pure.pure (f a)) (w' >>= fun b => Pure.pure (f' b)) Q :=
  bind hw fun a b hab => pure (h a b hab)

lemma read_bind {Q : α → β → Prop} {k : LoweringScope → Lower α} {k' : LoweringScope → Lower β}
    (hk : ∀ scope scope', ρ.Scopes t scope scope' → ρ.Lowers t (k scope) (k' scope') Q) :
    ρ.Lowers t (read >>= k) (read >>= k') Q :=
  fun scope scope' h => hk scope scope' h scope scope' h

lemma note (d : Diagnostic) : ρ.Lowers t (Lower.note d) (Lower.note d) (· = ·) :=
  fun _ _ _ _ => ⟨rfl, rfl⟩

lemma declaring {Q : α → β → Prop} (names : List String) {w : Lower α} {w' : Lower β}
    (hw : ρ.Lowers t w w' Q) :
    ρ.Lowers t (Lower.declaring names w) (Lower.declaring names w') Q :=
  fun _ _ h => hw _ _ (h.declaring names)

lemma mapM {Q : β → γ → Prop} {f : α → Lower β} {f' : α → Lower γ} : ∀ {xs : List α},
    (∀ x ∈ xs, ρ.Lowers t (f x) (f' x) Q) → ρ.Lowers t (xs.mapM f) (xs.mapM f') (List.Forall₂ Q)
  | [], _ => by
      rw [List.mapM_nil, List.mapM_nil]
      exact pure .nil
  | x :: xs, h => by
      rw [List.mapM_cons, List.mapM_cons]
      exact bind (h x List.mem_cons_self) fun _ _ hb =>
        bind (mapM fun y hy => h y (List.mem_cons_of_mem _ hy)) fun _ _ hbs => pure (.cons hb hbs)

lemma foldlM {P : β → γ → Prop} {f : β → α → Lower β} {f' : γ → α → Lower γ} : ∀ {xs : List α},
    (∀ x ∈ xs, ∀ b c, P b c → ρ.Lowers t (f b x) (f' c x) P) →
      ∀ {b : β} {c : γ}, P b c → ρ.Lowers t (xs.foldlM f b) (xs.foldlM f' c) P
  | [], _, _, _, hbc => pure hbc
  | x :: xs, h, b, c, hbc => by
      rw [List.foldlM_cons, List.foldlM_cons]
      exact bind (h x List.mem_cons_self b c hbc) fun _ _ hbc' =>
        foldlM (fun y hy => h y (List.mem_cons_of_mem _ hy)) hbc'

lemma unsupported (span : Span) (construct : String) :
    ρ.Lowers t (Lower.unsupported span construct) (Lower.unsupported span construct) (ρ.Types t) :=
  bind (note _) fun _ _ _ => read_bind fun scope scope' h => by
    rw [h.source]
    exact pure ⟨rfl, t.knows_nil⟩

end Lowers

/-! ## Names and accessors -/

/-- **A reference by name** refers to symbols that correspond. -/
lemma lowerName_lowers (name : List String) {args args' : List Ty}
    (hargs : List.Forall₂ (ρ.Types t) args args') (span : Span) :
    ρ.Lowers t (lowerName name args span) (lowerName name args' span) (ρ.Types t) := by
  refine .read_bind fun scope scope' h => ?_
  rw [h.lookupType, h.source]
  cases hid : scope.lookupType name with
  | some id =>
      obtain ⟨rfl, hknows⟩ := Types.all hargs
      refine .pure ⟨?_, SymbolTable.knows_cons.mpr ⟨h.lookupType_known hid, hknows⟩⟩
      simp [Ty.mapSymbols]
  | none =>
      dsimp only [Option.map_none]
      split_ifs
      · cases hargs with
        | nil => exact .pure (.array .any)
        | cons harg _ => exact .pure (.array harg)
      · exact .bind (.note _) fun _ _ _ => .pure ⟨rfl, t.knows_nil⟩

lemma Members.isPropertyOf {m m' : Member} (h : ρ.Members t m m') (name : String)
    (isStatic : Bool) : isPropertyOf name isStatic m' = isPropertyOf name isStatic m := by
  obtain ⟨_, kind, _, _⟩ := m
  obtain ⟨rfl, -⟩ := h
  cases kind <;> rfl

lemma Members.writable {m m' : Member} (h : ρ.Members t m m') :
    ρ.Members t (writable m) (writable m') := by
  obtain ⟨_, kind, _, _⟩ := m
  obtain ⟨rfl, hknows⟩ := h
  cases kind <;> exact ⟨rfl, hknows⟩

/-- A property of a name and a type. -/
lemma Members.property {ty ty' : Ty} (h : ρ.Types t ty ty') (name : Option String)
    (optional readonly isStatic : Bool) (span : Span) :
    ρ.Members t ⟨name, .property ty optional readonly, isStatic, span⟩
      ⟨name, .property ty' optional readonly, isStatic, span⟩ := by
  obtain ⟨rfl, hknows⟩ := h
  exact ⟨rfl, hknows⟩

/-- A member of a kind with a signature. -/
lemma Members.ofSignature {sig sig' : Signature} (h : ρ.Signatures t sig sig')
    (name : Option String) (isStatic : Bool) (span : Span) :
    (∀ optional, ρ.Members t ⟨name, .method sig optional, isStatic, span⟩
      ⟨name, .method sig' optional, isStatic, span⟩) ∧
    ρ.Members t ⟨name, .call sig, isStatic, span⟩ ⟨name, .call sig', isStatic, span⟩ ∧
    ρ.Members t ⟨name, .construct sig, isStatic, span⟩ ⟨name, .construct sig', isStatic, span⟩ ∧
    ρ.Members t ⟨name, .index sig, isStatic, span⟩ ⟨name, .index sig', isStatic, span⟩ := by
  obtain ⟨rfl, hknows⟩ := h
  exact ⟨fun _ => ⟨rfl, hknows⟩, ⟨rfl, hknows⟩, ⟨rfl, hknows⟩, ⟨rfl, hknows⟩⟩

lemma addAccessor_members {ty ty' : Ty} (hty : ρ.Types t ty ty') (name : String)
    (isSetter isStatic : Bool) (span : Span) {members members' : List Member}
    (h : List.Forall₂ (ρ.Members t) members members') :
    List.Forall₂ (ρ.Members t) (addAccessor name ty isSetter isStatic span members)
      (addAccessor name ty' isSetter isStatic span members') := by
  have hmodify : List.Forall₂ (ρ.Members t)
      (modifyFirst (isPropertyOf name isStatic) writable members)
      (modifyFirst (isPropertyOf name isStatic) writable members') := by
    induction h with
    | nil => exact .nil
    | cons hm hrest ih =>
        simp only [modifyFirst, hm.isPropertyOf]
        split_ifs
        · exact .cons hm.writable hrest
        · exact .cons hm ih
  have hany : members'.any (isPropertyOf name isStatic) =
      members.any (isPropertyOf name isStatic) := by
    clear hmodify
    induction h with
    | nil => rfl
    | cons hm _ ih => rw [List.any_cons, List.any_cons, hm.isPropertyOf, ih]
  simp only [addAccessor, hany]
  split_ifs
  · exact hmodify
  · exact List.rel_append h (.cons (.property hty _ _ _ _ _) .nil)

/-! ## Types -/

mutual

/-- **Type syntax becomes types that correspond.** -/
lemma lower_type : ∀ node : TypeNode, ρ.Lowers t node.lower node.lower (ρ.Types t)
  | ⟨span, form⟩ => lower_form span form

lemma lower_form (span : Span) : ∀ form : TypeForm,
    ρ.Lowers t (form.lower span) (form.lower span) (ρ.Types t)
  | .keyword _ => .pure ⟨rfl, t.knows_nil⟩
  | .this => .read_bind fun scope scope' h => by
      have hthis := h.this
      generalize scope.this = this at hthis ⊢
      generalize scope'.this = this' at hthis ⊢
      cases hthis with
      | none => exact .unsupported _ _
      | some hthis => exact .pure hthis
  | .reference name args => .read_bind fun scope scope' h => by
      have hname : ρ.Lowers t (do lowerName name (← TypeNode.lowerAll args) span)
          (do lowerName name (← TypeNode.lowerAll args) span) (ρ.Types t) :=
        .bind (lower_all args) fun _ _ hargs => lowerName_lowers name hargs span
      rw [h.isTypeParam]
      cases scope.isTypeParam name with
      | false => rcases name with _ | ⟨_, _ | _⟩ <;> exact hname
      | true =>
          rcases name with _ | ⟨_, _ | _⟩
          · exact hname
          · exact .pure ⟨rfl, t.knows_nil⟩
          · exact hname
  | .array element => (lower_type element).map fun _ _ => Types.array
  | .tuple elements => (lower_all elements).map fun _ _ h => by
      obtain ⟨rfl, hknows⟩ := Types.all h
      exact ⟨by simp [Ty.mapSymbols], hknows⟩
  | .union members => (lower_all members).map fun _ _ => Types.union
  | .intersection members => (lower_all members).map fun _ _ h => by
      obtain ⟨rfl, hknows⟩ := Types.all h
      exact ⟨by simp [Ty.mapSymbols], hknows⟩
  | .function sig => (lower_signature sig).map fun _ _ h => ⟨congrArg Ty.function h.1, h.2⟩
  | .shape members => (lower_members members .nil).map fun _ _ h => by
      obtain ⟨rfl, hknows⟩ := Members.all h
      exact ⟨by simp [Ty.mapSymbols], hknows⟩
  | .literal _ => .read_bind fun scope scope' h => by
      rw [h.source]
      exact .pure ⟨rfl, t.knows_nil⟩
  | .readonly inner => lower_type inner
  | .predicate _ => .pure ⟨rfl, t.knows_nil⟩
  | .unsupported _ _ => .unsupported _ _

lemma lower_all : ∀ nodes : List TypeNode,
    ρ.Lowers t (TypeNode.lowerAll nodes) (TypeNode.lowerAll nodes) (List.Forall₂ (ρ.Types t))
  | [] => .pure .nil
  | node :: rest => .bind (lower_type node) fun _ _ hty =>
      (lower_all rest).map fun _ _ htys => .cons hty htys

lemma lower_option : ∀ node : Option TypeNode,
    ρ.Lowers t (TypeNode.lowerOption node) (TypeNode.lowerOption node) (ρ.Types t)
  | none => .pure .any
  | some node => lower_type node

lemma lower_signature : ∀ node : SignatureNode,
    ρ.Lowers t node.lower node.lower (ρ.Signatures t)
  | ⟨_, params, rest, result⟩ => .declaring _ <|
      .bind (lower_params 0 params) fun _ _ hparams => .bind (lower_rest rest) fun _ _ hrest =>
        (lower_option result).map fun _ _ hresult =>
          .mk _ (List.rel_append hparams hrest) hresult

lemma lower_params (index : Nat) : ∀ nodes : List ParamNode,
    ρ.Lowers t (ParamNode.lowerAll index nodes) (ParamNode.lowerAll index nodes)
      (List.Forall₂ (ρ.Params t))
  | [] => .pure .nil
  | ⟨_, type, _, _, _⟩ :: more => .bind (lower_option type) fun _ _ hty =>
      (lower_params (index + 1) more).map fun _ _ hmore => by
        obtain ⟨rfl, hknows⟩ := hty
        exact .cons ⟨rfl, hknows⟩ hmore

lemma lower_rest : ∀ node : Option ParamNode,
    ρ.Lowers t (ParamNode.lowerRest node) (ParamNode.lowerRest node) (List.Forall₂ (ρ.Params t))
  | none => .pure .nil
  | some ⟨_, none, _, _, _⟩ => .pure (.cons ⟨rfl, t.knows_nil⟩ .nil)
  | some ⟨_, some type, _, _, _⟩ => (lower_type type).map fun _ _ hty => by
      obtain ⟨rfl, hknows⟩ := hty
      exact .cons ⟨rfl, hknows⟩ .nil

lemma lower_first : ∀ nodes : List ParamNode,
    ρ.Lowers t (ParamNode.lowerFirst nodes) (ParamNode.lowerFirst nodes) (ρ.Types t)
  | [] => .pure .any
  | ⟨_, type, _, _, _⟩ :: _ => lower_option type

lemma lower_accessor (isSetter : Bool) : ∀ node : SignatureNode,
    ρ.Lowers t (node.lowerAccessor isSetter) (node.lowerAccessor isSetter) (ρ.Types t)
  | ⟨_, params, _, result⟩ => by
      cases isSetter with
      | true => exact lower_first params
      | false => exact lower_option result

lemma lower_member : ∀ (node : MemberNode) {members members' : List Member},
    List.Forall₂ (ρ.Members t) members members' →
      ρ.Lowers t (node.lowerOnto members) (node.lowerOnto members') (List.Forall₂ (ρ.Members t))
  | .property span key optional readonly type, _, _, h => by
      simp only [MemberNode.lowerOnto]
      cases key.name? with
      | none => exact .bind (.note _) fun _ _ _ => .pure h
      | some name => exact (lower_option type).map fun _ _ hty =>
          List.rel_append h (.cons (.property hty _ _ _ _ _) .nil)
  | .method span key kind optional sig, _, _, h => by
      simp only [MemberNode.lowerOnto]
      cases key.name? with
      | none => exact .bind (.note _) fun _ _ _ => .pure h
      | some name =>
          cases kind with
          | method => exact (lower_signature sig).map fun _ _ hsig =>
              List.rel_append h (.cons ((Members.ofSignature hsig _ _ _).1 _) .nil)
          | getter => exact (lower_accessor false sig).map fun _ _ hty =>
              addAccessor_members hty _ _ _ _ h
          | setter => exact (lower_accessor true sig).map fun _ _ hty =>
              addAccessor_members hty _ _ _ _ h
  | .call span sig, _, _, h => (lower_signature sig).map fun _ _ hsig =>
      List.rel_append h (.cons (Members.ofSignature hsig _ _ _).2.1 .nil)
  | .construct span sig, _, _, h => (lower_signature sig).map fun _ _ hsig =>
      List.rel_append h (.cons (Members.ofSignature hsig _ _ _).2.2.1 .nil)
  | .index span isStatic keyName key value, _, _, h =>
      .bind (lower_type key) fun _ _ hkey => (lower_type value).map fun _ _ hvalue =>
        List.rel_append h (.cons (Members.ofSignature (.mk [] (.cons (by
          obtain ⟨rfl, hknows⟩ := hkey
          exact ⟨rfl, hknows⟩) .nil) hvalue) _ _ _).2.2.2 .nil)

lemma lower_members : ∀ (nodes : List MemberNode) {members members' : List Member},
    List.Forall₂ (ρ.Members t) members members' →
      ρ.Lowers t (MemberNode.lowerAllOnto members nodes) (MemberNode.lowerAllOnto members' nodes)
        (List.Forall₂ (ρ.Members t))
  | [], _, _, h => .pure h
  | node :: rest, _, _, h => .bind (lower_member node h) fun _ _ h' => lower_members rest h'

end

/-! ## Heritage and classes -/

lemma lower_base (name : Option (List String)) (args : List TypeNode) (span : Span) :
    ρ.Lowers t (lowerBase name args span) (lowerBase name args span) (ρ.Types t) := by
  cases name with
  | none =>
      refine .read_bind fun scope scope' h => ?_
      rw [h.source]
      exact .pure ⟨rfl, t.knows_nil⟩
  | some name => exact lower_form span (.reference name args)

lemma lower_heritage (nodes : List HeritageNode) :
    ρ.Lowers t (lowerHeritage nodes) (lowerHeritage nodes) (List.Forall₂ (ρ.Types t)) :=
  .mapM fun node _ => lower_base node.name node.args node.span

lemma lower_element {self self' : Ty} (hself : ρ.Types t self self') (element : ClassElement)
    {members members' : List Member} (h : List.Forall₂ (ρ.Members t) members members') :
    ρ.Lowers t (lowerElementOnto self members element) (lowerElementOnto self' members' element)
      (List.Forall₂ (ρ.Members t)) := by
  cases element with
  | method span key kind isStatic optional isPrivate f =>
      simp only [lowerElementOnto]
      cases isPrivate with
      | true => exact .pure h
      | false =>
          cases key.name? with
          | none => exact .pure h
          | some name =>
              cases kind with
              | constructor =>
                  refine (lower_signature _).map fun sig sig' hsig => ?_
                  rw [hsig.typeParams]
                  exact List.rel_append h (.cons
                    (Members.ofSignature (.mk _ hsig.params hself) _ _ _).2.2.1 .nil)
              | method kind =>
                  cases kind with
                  | method => exact (lower_signature _).map fun _ _ hsig =>
                      List.rel_append h (.cons ((Members.ofSignature hsig _ _ _).1 _) .nil)
                  | getter => exact (lower_accessor false _).map fun _ _ hty =>
                      addAccessor_members hty _ _ _ _ h
                  | setter => exact (lower_accessor true _).map fun _ _ hty =>
                      addAccessor_members hty _ _ _ _ h
  | property span key isStatic optional readonly isPrivate type value =>
      simp only [lowerElementOnto]
      cases isPrivate with
      | true => exact .pure h
      | false =>
          cases key.name? with
          | none => exact .pure h
          | some name => exact (lower_option type).map fun _ _ hty =>
              List.rel_append h (.cons (.property hty _ _ _ _ _) .nil)
  | index m => exact lower_member m h
  | accessor => exact .pure h
  | initializer => exact .pure h

/-- The members of a class whose type corresponds. -/
lemma lower_elements {self self' : Ty} (hself : ρ.Types t self self')
    (elements : List ClassElement) :
    ρ.Lowers t (lowerElements self elements) (lowerElements self' elements)
      (List.Forall₂ (ρ.Members t)) :=
  .foldlM (fun element _ _ _ h => lower_element hself element h) .nil

end Renumbering

end Interop
