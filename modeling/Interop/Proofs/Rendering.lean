import Interop.Proofs.Trace
import Interop.Rendering.Resolve

/-!
# Rendering leaves a trace

Rendering goes from form to form of a type, through aliases and from overload to overload.  Every
part of it leaves a trace if the renderer that it is given does, so rendering with any bound on the
depth does.

* `RenderOptions.Plain` — the options that the program renders with.
* `Renderer.Traced` — a renderer of which every computation leaves a trace.
* **`renderWithin_traced`** — rendering with a bound leaves a trace.
-/

namespace Interop

/-- Options without arguments for aliases and without bindings. -/
structure RenderOptions.Plain (o : RenderOptions) : Prop where
  typeArguments : o.typeArguments = none
  bindings : o.bindings = none

namespace RenderOptions.Plain

lemma default : Plain {} :=
  ⟨rfl, rfl⟩

lemma key : Plain .key :=
  ⟨rfl, rfl⟩

lemma nested {o : RenderOptions} (h : o.Plain) : o.nested.Plain :=
  ⟨rfl, h.bindings⟩

lemma argument {o : RenderOptions} (h : o.Plain) : o.argument.Plain :=
  ⟨rfl, h.bindings⟩

end RenderOptions.Plain

/-- The parameters of an alias stand for its arguments, or for anything. -/
lemma snd_of_mem_aliasBindings {params : List String} {args : List Ty} {entry : String × Ty}
    (h : entry ∈ aliasBindings params args) : entry.2 ∈ args ∨ entry.2 = .any := by
  simp only [aliasBindings, List.mem_reverse, List.mem_map] at h
  obtain ⟨⟨name, i⟩, -, rfl⟩ := h
  cases harg : args[i]? with
  | none => exact Or.inr (by simp)
  | some arg => exact Or.inl (by simpa [harg] using List.mem_of_getElem? harg)

/-- A renderer of which every computation leaves a trace. -/
def Renderer.Traced (may : Failure → Prop) (table : SymbolTable) (render : Renderer) : Prop :=
  ∀ ty o, Work.Traced may table (render ty o)

variable {may : Failure → Prop} {table : SymbolTable} {render : Renderer}

lemma Renderer.Traced.key (h : render.Traced may table) (ty : Ty) :
    Work.Traced may table (render.key ty) :=
  .bind (.detached (h ty .key)) fun r => .pure r.text

/-! ## Distinct types -/

namespace DistinctTypes

lemma add_traced (h : render.Traced may table) (steps : Nat) (d : DistinctTypes) (ty : Ty) :
    Work.Traced may table (d.add render steps ty) := by
  refine .get_bind (fun _ => rfl) fun s => ?_
  cases components s.table s.expanding steps ty with
  | none => exact .exhausted
  | some parts => exact .foldlM d fun d part _ => .bind (h.key part) fun key => .pure _

lemma ofTypes_traced (h : render.Traced may table) (steps : Nat) (tys : List Ty) :
    Work.Traced may table (ofTypes render steps tys) :=
  .foldlM _ fun d ty _ => add_traced h steps d ty

lemma representative_traced (h : render.Traced may table) (steps : Nat) (tys : List Ty) :
    Work.Traced may table (representative render steps tys) :=
  .bind (ofTypes_traced h steps tys) fun _ => .pure _

end DistinctTypes

/-! ## Forms of types -/

lemma renderSignature_traced (h : render.Traced may table) (o : RenderOptions) (sig : Signature) :
    Work.Traced may table (renderSignature render o sig) := by
  refine .bind (h sig.result o) fun result => ?_
  refine .bind (.mapM fun p _ => ?_) fun params => .pure _
  exact .bind (h p.type o) fun _ => .pure _

lemma renderFunction_traced (h : render.Traced may table) (sig : Signature) (o : RenderOptions) :
    Work.Traced may table (renderFunction render sig o) := by
  unfold renderFunction
  split_ifs
  · exact .table_bind (.pure _)
  · exact .bind (.inScope _ (renderSignature_traced h _ sig)) fun _ => .pure _

lemma renderAlias_traced (h : render.Traced may table) (id : Nat) (symbol : Symbol)
    (args : List Ty) (o : RenderOptions) :
    Work.Traced may table (renderAlias render id symbol args o) := by
  unfold renderAlias
  cases symbol.aliased with
  | none => exact .pure _
  | some body =>
      refine .get_bind (fun _ => rfl) fun s => ?_
      split_ifs
      · exact .bind (.reportUnsupported _) fun _ => .pure _
      · exact .expanding id (h _ _)
      · exact .expanding id (h _ _)

lemma renderNominal_traced (h : render.Traced may table) {id : Nat} {symbol : Symbol}
    (hid : table.get? id = some symbol) (hkind : symbol.kind.isEmitted = true) (args : List Ty)
    (o : RenderOptions) : Work.Traced may table (renderNominal render id symbol args o) := by
  refine .bind (.nameOf hid hkind) fun name => ?_
  cases name with
  | none => exact .pure _
  | some name =>
      dsimp only
      split_ifs
      · exact .pure _
      · refine .bind (.mapM fun arg _ => ?_) fun _ => .pure _
        exact .bind (h arg _) fun _ => .pure _

lemma renderSymbol_traced (h : render.Traced may table) (id : Nat) (args : List Ty)
    (o : RenderOptions) : Work.Traced may table (renderSymbol render id args o) := by
  refine .table_bind ?_
  cases hid : table.get? id with
  | none => exact .bind (.reportUnresolved _) fun _ => .pure _
  | some symbol =>
      cases hkind : symbol.kind with
      | «alias» => simpa only [hkind] using renderAlias_traced h id symbol args o
      | klass | interface | enum =>
          have hemitted : symbol.kind.isEmitted = true := by rw [hkind]; rfl
          simpa only [hkind] using renderNominal_traced h hid hemitted args o
      | function | «variable» | typeParameter | nameSpace =>
          simp only [hkind]
          exact .bind (.reportUnsupported _) fun _ => .pure _

lemma renderShape_traced (h : render.Traced may table) (members : List Member)
    (o : RenderOptions) : Work.Traced may table (renderShape render members o) := by
  unfold renderShape
  split
  · exact renderFunction_traced h _ o
  · exact .table_bind (.pure _)

lemma renderUnion_traced (h : render.Traced may table) (steps : Nat) (ty : Ty)
    (members : List Ty) (o : RenderOptions) :
    Work.Traced may table (renderUnion render steps ty members o) := by
  have hend : ∀ text, Work.Traced may table (if members.length > 1 then do
      return Rendered.annotated text (ty.text (← Work.table)) o
    else return Rendered.plain text) := by
    intro text
    split_ifs
    · exact .table_bind (.pure _)
    · exact .pure _
  refine .bind (DistinctTypes.ofTypes_traced h steps members) fun merged => ?_
  refine .bind (.filterM fun member _ => ?_) fun concrete => ?_
  · exact .bind (.detached (h member _)) fun _ => .pure _
  · refine .get_bind (fun _ => rfl) fun s => ?_
    dsimp only
    cases shownMember (o.policy.getD s.policy) concrete with
    | none => exact .bind (.pure _) hend
    | some member => exact .bind (h member _) fun _ => .bind (.pure _) hend

/-! ## All forms -/

/-- **Rendering leaves a trace**, however deep it may go. -/
theorem renderWithin_traced (depth : Nat) : (renderWithin depth).Traced may table := by
  induction depth with
  | zero =>
      intro ty o
      exact .exhausted
  | succ depth ih =>
      intro ty o
      cases ty with
      | primitive kind => exact .pure _
      | nominal symbol args => exact renderSymbol_traced ih symbol args o
      | «alias» symbol => exact renderSymbol_traced ih symbol _ o
      | function sig => exact renderFunction_traced ih sig o
      | array element =>
          refine .bind (DistinctTypes.representative_traced ih depth [element]) fun element => ?_
          exact .bind (ih element _) fun _ => .pure _
      | tuple elements =>
          refine .bind (DistinctTypes.representative_traced ih depth elements) fun element => ?_
          exact .bind (ih element _) fun _ => .table_bind (.pure _)
      | shape members => exact renderShape_traced ih members o
      | param name =>
          simp only [renderWithin]
          cases o.bindings.bind (·.lookup name) with
          | some bound => exact ih bound o
          | none =>
              refine .get_bind (fun _ => rfl) fun s => ?_
              split_ifs <;> exact .pure _
      | literal kind text => exact .pure _
      | union members => exact renderUnion_traced ih depth _ members o
      | intersection members => exact renderUnion_traced ih depth _ members o
      | raw text => exact .pure _

lemma render_traced : Interop.render.Traced may table :=
  renderWithin_traced depthLimit

lemma distinctTypes_traced (tys : List Ty) : Work.Traced may table (distinctTypes tys) :=
  DistinctTypes.ofTypes_traced render_traced depthLimit tys

end Interop
