import Interop.Proofs.Following
import Interop.Proofs.Work
import Interop.Rendering.Resolve

/-!
# The bound on the depth

The bound is there to make rendering end, and nothing else comes of it: a computation with a larger
bound does what one with a smaller bound does, unless that one is exhausted.  So a text that was
rendered is the text for all larger bounds.

* `Work.Refines` — a computation, and one that goes on where it is exhausted.
* `components_mono` — what a type counts as, with more steps.
* **`renderWithin_refines`** — rendering with a larger bound.
-/

namespace Interop

namespace Work

variable {α β : Type}

/-- **A computation does what another one does, unless that one is exhausted.** -/
def Refines (w w' : Work α) : Prop :=
  ∀ s, (w.exec s).1 = .error .exhausted ∨ w'.exec s = w.exec s

namespace Refines

lemma refl (w : Work α) : w.Refines w :=
  fun _ => Or.inr rfl

lemma exhausted (w : Work α) : (MonadExcept.throw .exhausted : Work α).Refines w :=
  fun _ => Or.inl rfl

/-- Composition. -/
lemma bind {w w' : Work α} {k k' : α → Work β} (hw : w.Refines w')
    (hk : ∀ a, (k a).Refines (k' a)) : (w >>= k).Refines (w' >>= k') := by
  intro s
  rw [exec_bind, exec_bind]
  rcases hw s with hexhausted | hsame
  · left
    rcases hrun : w.exec s with ⟨out, t⟩
    rw [hrun] at hexhausted
    obtain rfl : out = .error .exhausted := hexhausted
    rfl
  · rw [hsame]
    rcases w.exec s with ⟨failure | a, t⟩
    · exact Or.inr rfl
    · exact hk a t

/-- Both begin with the same. -/
lemma same_bind {w : Work α} {k k' : α → Work β} (hk : ∀ a, (k a).Refines (k' a)) :
    (w >>= k).Refines (w >>= k') :=
  bind (refl w) hk

lemma map {w w' : Work α} (hw : w.Refines w') (f : α → β) :
    (w >>= fun a => Pure.pure (f a)).Refines (w' >>= fun a => Pure.pure (f a)) :=
  bind hw fun _ => refl _

lemma within {enter leave : Session → Session} {w w' : Work α} (hw : w.Refines w') :
    (Work.within enter leave w).Refines (Work.within enter leave w') := by
  intro s
  rw [exec_within, exec_within]
  refine (hw (enter s)).imp id fun hsame => ?_
  rw [hsame]

lemma mapM {f f' : α → Work β} (h : ∀ a, (f a).Refines (f' a)) : ∀ xs : List α,
    (xs.mapM f).Refines (xs.mapM f')
  | [] => refl _
  | x :: xs => by
      rw [List.mapM_cons, List.mapM_cons]
      exact bind (h x) fun _ => map (mapM h xs) _

lemma foldlM {f f' : β → α → Work β} (h : ∀ b a, (f b a).Refines (f' b a)) :
    ∀ (xs : List α) (b : β), (xs.foldlM f b).Refines (xs.foldlM f' b)
  | [], _ => refl _
  | x :: xs, b => by
      rw [List.foldlM_cons, List.foldlM_cons]
      exact bind (h b x) fun c => foldlM h xs c

lemma filterM {f f' : α → Work Bool} (h : ∀ a, (f a).Refines (f' a)) (xs : List α) :
    (xs.filterM f).Refines (xs.filterM f') := by
  rw [filterM_eq_foldlM, filterM_eq_foldlM]
  exact map (foldlM (fun _ x => map (h x) _) xs []) _

end Refines

end Work

/-! ## Components -/

/-- **What a type counts as, it counts as with more steps.** -/
lemma components_mono {table : SymbolTable} {expanding : List Nat} : ∀ {steps more : Nat} {ty : Ty}
    {parts : List Ty}, components table expanding steps ty = some parts → steps ≤ more →
      components table expanding more ty = some parts
  | 0, _, _, _, h, _ => by cases h
  | steps + 1, more + 1, ty, parts, h, hle => by
      have hle : steps ≤ more := Nat.le_of_succ_le_succ hle
      have hmapM : ∀ (members : List Ty) lists,
          members.mapM (components table expanding steps) = some lists →
            members.mapM (components table expanding more) = some lists := by
        intro members
        induction members with
        | nil => exact fun lists hlists => hlists
        | cons member members ih =>
            intro lists hlists
            rw [List.mapM_cons] at hlists ⊢
            obtain ⟨first, hfirst, hrest⟩ := Option.bind_eq_some_iff.mp hlists
            obtain ⟨others, hothers, hsame⟩ := Option.bind_eq_some_iff.mp hrest
            rw [components_mono hfirst hle, ih others hothers]
            exact hsame
      cases hform : followAliases table expanding ty with
      | union members | intersection members =>
          simp only [components, hform] at h
          obtain ⟨lists, hlists, rfl⟩ := Option.map_eq_some_iff.mp h
          simp only [components, hform, hmapM members lists hlists, Option.map_some]
      | _ =>
          simp only [components, hform] at h
          simpa only [components, hform] using h

/-! ## Rendering -/

/-- A renderer does what another one does, unless that one is exhausted. -/
def Renderer.Refines (render render' : Renderer) : Prop :=
  ∀ ty o, (render ty o).Refines (render' ty o)

section

variable {render render' : Renderer} (h : render.Refines render')
include h

lemma Renderer.Refines.key (ty : Ty) : (render.key ty).Refines (render'.key ty) :=
  .map (.within (h ty .key)) _

lemma Renderer.Refines.withComment (ty : Ty) (o : RenderOptions) :
    (do return (← render ty o).withComment : Work String).Refines
      (do return (← render' ty o).withComment) :=
  .map (h ty o) _

namespace DistinctTypes

variable {steps more : Nat} (hle : steps ≤ more)
include hle

lemma add_refines (d : DistinctTypes) (ty : Ty) :
    (d.add render steps ty).Refines (d.add render' more ty) := by
  refine .same_bind fun s => ?_
  cases hparts : components s.table s.expanding steps ty with
  | none => exact .exhausted _
  | some parts =>
      rw [components_mono hparts hle]
      exact .foldlM (fun d part => .map (h.key part) _) parts d

lemma ofTypes_refines (tys : List Ty) :
    (ofTypes render steps tys).Refines (ofTypes render' more tys) :=
  .foldlM (add_refines h hle) tys {}

lemma representative_refines (tys : List Ty) :
    (representative render steps tys).Refines (representative render' more tys) :=
  .map (ofTypes_refines h hle tys) _

end DistinctTypes

lemma renderSignature_refines (o : RenderOptions) (sig : Signature) :
    (renderSignature render o sig).Refines (renderSignature render' o sig) :=
  .bind (h sig.result o) fun _ => .map (.mapM (fun p => .map (h p.type o) _) sig.params) _

lemma renderFunction_refines (sig : Signature) (o : RenderOptions) :
    (renderFunction render sig o).Refines (renderFunction render' sig o) := by
  unfold renderFunction
  split_ifs
  · exact .refl _
  · exact .map (.within (renderSignature_refines h _ sig)) _

lemma renderAlias_refines (id : Nat) (symbol : Symbol) (args : List Ty) (o : RenderOptions) :
    (renderAlias render id symbol args o).Refines (renderAlias render' id symbol args o) := by
  unfold renderAlias
  cases symbol.aliased with
  | none => exact .refl _
  | some body =>
      refine .same_bind fun s => ?_
      split
      · exact .refl _
      · exact .within (h _ _)

lemma renderNominal_refines (id : Nat) (symbol : Symbol) (args : List Ty) (o : RenderOptions) :
    (renderNominal render id symbol args o).Refines (renderNominal render' id symbol args o) := by
  refine .same_bind fun name => ?_
  cases name with
  | none => exact .refl _
  | some name =>
      dsimp only
      split_ifs
      · exact .refl _
      · exact .map (.mapM (fun arg => h.withComment arg _) args) _

lemma renderSymbol_refines (id : Nat) (args : List Ty) (o : RenderOptions) :
    (renderSymbol render id args o).Refines (renderSymbol render' id args o) := by
  refine .same_bind fun table => ?_
  cases table.get? id with
  | none => exact .refl _
  | some symbol =>
      dsimp only
      cases symbol.kind with
      | «alias» => exact renderAlias_refines h id symbol args o
      | klass | interface | enum => exact renderNominal_refines h id symbol args o
      | function | «variable» | typeParameter | nameSpace => exact .refl _

lemma renderShape_refines (members : List Member) (o : RenderOptions) :
    (renderShape render members o).Refines (renderShape render' members o) := by
  unfold renderShape
  split
  · exact renderFunction_refines h _ o
  · exact .refl _

lemma renderUnion_refines {steps more : Nat} (hle : steps ≤ more) (ty : Ty) (members : List Ty)
    (o : RenderOptions) : (renderUnion render steps ty members o).Refines
      (renderUnion render' more ty members o) := by
  refine .bind (DistinctTypes.ofTypes_refines h hle members) fun merged => ?_
  refine .bind (.filterM (fun member => .map (.within (h member _)) _) _) fun concrete => ?_
  refine .same_bind fun s => ?_
  dsimp only
  cases shownMember (o.policy.getD s.policy) concrete with
  | none => exact .refl _
  | some member => exact .bind (h member _) fun _ => .refl _

end

/-- **Rendering with a larger bound** does what rendering with a smaller one does, unless that is
exhausted. -/
theorem renderWithin_refines : ∀ {depth more : Nat}, depth ≤ more →
    (renderWithin depth).Refines (renderWithin more)
  | 0, _, _ => fun _ _ => .exhausted _
  | depth + 1, more + 1, hle => by
      have hle : depth ≤ more := Nat.le_of_succ_le_succ hle
      have ih := renderWithin_refines hle
      intro ty o
      cases ty with
      | primitive | literal | raw => exact .refl _
      | nominal id args => exact renderSymbol_refines ih id args o
      | «alias» id => exact renderSymbol_refines ih id _ o
      | function sig => exact renderFunction_refines ih sig o
      | array element =>
          refine .bind (DistinctTypes.representative_refines ih hle _) fun element => ?_
          exact .bind (ih element _) fun _ => .refl _
      | tuple elements =>
          refine .bind (DistinctTypes.representative_refines ih hle _) fun element => ?_
          exact .bind (ih element _) fun _ => .refl _
      | shape members => exact renderShape_refines ih members o
      | param name =>
          simp only [renderWithin]
          cases o.bindings.bind (·.lookup name) with
          | some bound => exact ih bound o
          | none => exact .refl _
      | union members | intersection members => exact renderUnion_refines ih hle _ members o

end Interop
