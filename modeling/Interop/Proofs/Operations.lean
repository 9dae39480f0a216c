import Interop.Proofs.Trace
import Interop.Overload.Group

/-!
# What computations are made of

A computation on a session is put together from a few operations: it reads the session, reports,
refers to a library, asks for a name, and does such things between a change and its undoing.  What
holds of every operation holds of all that is put together from them, also of a computation that
fails in the middle.  So a property of whatever is rendered, compared or merged is shown operation by
operation, without another look at the forms of types.

* `Work.Composed` — a computation that is put together from operations.  It throws only failures of
  one set, and makes only changes of another that are not undone.
* `Work.Kept`, `Composed.kept` — what every operation keeps, all that is composed keeps.
* `Session.Change` — the changes that are open to all.
* **`renderWithin_composed`**, `Slots.foldIn_composed`, **`mergeMembers_composed`** — rendering
  makes no change that lasts, and merging overloads moves the place of diagnostics.
-/

namespace Interop

/-- A change of a session that is open to all and lasts. -/
inductive Session.Change : (Session → Session) → Prop
  | addLibrary (name : String) : Change (·.addLibrary name)
  | assign (file library : Nat) : Change (·.assign file library)
  | enter (library : Nat) : Change (·.enter library)
  | pointAt (span : Span) : Change (·.pointAt span)
  | pushScope (names : List String) : Change (·.pushScope names)
  | popScope : Change Session.popScope
  /-- The diagnostics are handed over. -/
  | clear : Change fun s => { s with log := s.log.cleared }

/-- No change at all. -/
def Session.NoChange (_ : Session → Session) : Prop := False

/-- A change of nothing but the place of diagnostics. -/
def Session.ChangesPlace (change : Session → Session) : Prop :=
  ∃ span, change = (·.pointAt span)

namespace Work

variable {α β : Type}

/-- **A computation that is put together from operations.**  Names and reports may fail on their own;
apart from that it throws what the first parameter allows.  The second parameter tells the changes
that it may make for good. -/
inductive Composed (fails : Failure → Prop) (changes : (Session → Session) → Prop) :
    {α : Type} → Work α → Prop
  | pure {α : Type} (a : α) : Composed fails changes (Pure.pure a : Work α)
  | throw {α : Type} {failure : Failure} (allowed : fails failure) :
      Composed fails changes (MonadExcept.throw failure : Work α)
  | bind {α β : Type} {w : Work α} {k : α → Work β} (first : Composed fails changes w)
      (rest : ∀ a, Composed fails changes (k a)) : Composed fails changes (w >>= k)
  /-- A failure is caught. -/
  | orElse {α : Type} {w : Work α} {k : Failure → Work α} (first : Composed fails changes w)
      (rest : ∀ failure, Composed fails changes (k failure)) :
      Composed fails changes (tryCatch w k)
  | get : Composed fails changes get
  | modify {change : Session → Session} (allowed : changes change) :
      Composed fails changes (modify change : Work Unit)
  | report (d : Diagnostic) : Composed fails changes (Work.report d)
  | refer (library : Nat) : Composed fails changes (modify (·.refer library) : Work Unit)
  | allocate (path : DeclPath) (library : Nat) : Composed fails changes (Work.allocate path library)
  | inScope {α : Type} {w : Work α} (names : List String) (inner : Composed fails changes w) :
      Composed fails changes (Work.inScope names w)
  | expanding {α : Type} {w : Work α} (id : Nat) (inner : Composed fails changes w) :
      Composed fails changes (Work.expanding id w)
  | detached {α : Type} {w : Work α} (inner : Composed fails changes w) :
      Composed fails changes (Work.detached w)

/-- What succeeds has succeeded step by step. -/
lemma exec_bind_ok {w : Work α} {k : α → Work β} {s t : Session} {b : β}
    (h : (w >>= k).exec s = (.ok b, t)) : ∃ a u, w.exec s = (.ok a, u) ∧
      (k a).exec u = (.ok b, t) := by
  rw [exec_bind] at h
  rcases hrun : w.exec s with ⟨failure | a, u⟩
  · rw [hrun] at h
    cases h
  · rw [hrun] at h
    exact ⟨a, u, rfl, h⟩

/-- The failures of rendering, apart from those of names and reports: types lie too deep inside one
another, or a declaration is referred to whose file is in no library. -/
structure ExpectsRendering (fails : Failure → Prop) : Prop where
  exhausted : fails .exhausted
  foreign : ∀ span path, fails (.structural span (.foreignFile path))

/-- **A relation of sessions that every operation keeps.** -/
structure Kept (changes : (Session → Session) → Prop) (R : Session → Session → Prop) : Prop where
  refl : ∀ s, R s s
  trans : ∀ {s t u}, R s t → R t u → R s u
  modify : ∀ change, changes change → ∀ s, R s (change s)
  report : ∀ s d log, s.log.add d = .ok log → R s { s with log }
  refer : ∀ s library, R s (s.refer library)
  allocate : ∀ s path library lib, s.library? library = some lib →
    R s { s with registry := (s.registry.allocate path lib).2.1,
                 libraries := s.libraries.setIfInBounds library
                   (s.registry.allocate path lib).2.2 }
  inScope : ∀ s names t, R (s.pushScope names) t → R s t.popScope
  expanding : ∀ s id t, R (s.pushAlias id) t → R s t.popAlias
  detached : ∀ s t, R s.detach t → R s t.attach

namespace Composed

variable {fails more : Failure → Prop} {changes others : (Session → Session) → Prop}

/-- A computation stays what it is when more is allowed. -/
lemma mono {w : Work α} (h : w.Composed fails changes) (hfails : ∀ failure, fails failure →
    more failure) (hchanges : ∀ change, changes change → others change) :
    w.Composed more others := by
  induction h with
  | pure a => exact .pure a
  | throw allowed => exact .throw (hfails _ allowed)
  | bind _ _ ihw ihk => exact .bind ihw ihk
  | orElse _ _ ihw ihk => exact .orElse ihw ihk
  | get => exact .get
  | modify allowed => exact .modify (hchanges _ allowed)
  | report d => exact .report d
  | refer library => exact .refer library
  | allocate path library => exact .allocate path library
  | inScope names _ ih => exact .inScope names ih
  | expanding id _ ih => exact .expanding id ih
  | detached _ ih => exact .detached ih

/-- **What every operation keeps, a computation keeps**, however it ends. -/
theorem kept {R : Session → Session → Prop} (hR : Kept changes R) {w : Work α}
    (h : w.Composed fails changes) : ∀ s, R s (w.exec s).2 := by
  induction h with
  | pure a => exact fun s => hR.refl s
  | throw _ => exact fun s => hR.refl s
  | bind _ _ ihw ihk =>
      intro s
      have hfirst := ihw s
      rw [exec_bind]
      rcases hrun : Work.exec _ s with ⟨failure | a, t⟩
      all_goals rw [hrun] at hfirst
      · exact hfirst
      · exact hR.trans hfirst (ihk a t)
  | orElse _ _ ihw ihk =>
      intro s
      have hfirst := ihw s
      rw [exec_orElse]
      rcases hrun : Work.exec _ s with ⟨failure | a, t⟩
      all_goals rw [hrun] at hfirst
      · exact hR.trans hfirst (ihk failure t)
      · exact hfirst
  | get => exact fun s => hR.refl s
  | modify allowed => exact fun s => hR.modify _ allowed s
  | report d =>
      intro s
      rw [exec_report]
      cases hlog : s.log.add d with
      | ok log => exact hR.report s d log hlog
      | error failure => exact hR.refl s
  | refer library => exact fun s => hR.refer s library
  | allocate path library =>
      intro s
      cases hlib : s.library? library with
      | some lib =>
          rw [exec_allocate hlib]
          exact hR.allocate s path library lib hlib
      | none =>
          rw [exec_allocate_missing hlib]
          exact hR.refl s
  | inScope names _ ih => exact fun s => hR.inScope s names _ (ih _)
  | expanding id _ ih => exact fun s => hR.expanding s id _ (ih _)
  | detached _ ih => exact fun s => hR.detached s _ (ih _)

lemma table_bind {k : SymbolTable → Work α} (hk : ∀ table, (k table).Composed fails changes) :
    (Work.table >>= k).Composed fails changes :=
  .bind (.bind .get fun _ => .pure _) hk

lemma reportUnsupported (construct : String) :
    (Work.reportUnsupported construct).Composed fails changes :=
  .bind .get fun _ => .report _

lemma reportUnresolved (name : String) : (Work.reportUnresolved name).Composed fails changes :=
  .bind .get fun _ => .report _

lemma nameOf (hforeign : ∀ span path, fails (.structural span (.foreignFile path))) (id : Nat) :
    (Work.nameOf id).Composed fails changes := by
  refine .bind .get fun s => ?_
  split
  · exact .pure none
  · split
    · exact .pure _
    · split
      · exact .throw (hforeign _ _)
      · split_ifs
        · exact .bind (.refer _) fun _ => .bind (.allocate _ _) fun _ => .pure _
        · exact .pure none

/-! ### Lists -/

lemma mapM {f : α → Work β} : ∀ {xs : List α}, (∀ x ∈ xs, (f x).Composed fails changes) →
    (xs.mapM f).Composed fails changes
  | [], _ => by
      rw [List.mapM_nil]
      exact .pure []
  | x :: xs, h => by
      rw [List.mapM_cons]
      refine .bind (h x (by simp)) fun b => ?_
      exact .bind (mapM fun y hy => h y (by simp [hy])) fun bs => .pure (b :: bs)

lemma foldlM {f : β → α → Work β} : ∀ {xs : List α} (b : β),
    (∀ b, ∀ x ∈ xs, (f b x).Composed fails changes) → (xs.foldlM f b).Composed fails changes
  | [], b, _ => .pure b
  | x :: xs, b, h => by
      rw [List.foldlM_cons]
      exact .bind (h b x (by simp)) fun b' => foldlM b' fun b y hy => h b y (by simp [hy])

lemma filterM {f : α → Work Bool} {xs : List α} (h : ∀ x ∈ xs, (f x).Composed fails changes) :
    (xs.filterM f).Composed fails changes := by
  rw [filterM_eq_foldlM]
  exact .bind (.foldlM [] fun kept x hx => .bind (h x hx) fun _ => .pure _) fun _ => .pure _

end Composed

end Work

/-! ## Rendering -/

/-- A renderer of which every computation is put together from operations. -/
def Renderer.Composed (fails : Failure → Prop) (changes : (Session → Session) → Prop)
    (render : Renderer) : Prop :=
  ∀ ty o, (render ty o).Composed fails changes

section

variable {fails : Failure → Prop} {changes : (Session → Session) → Prop}
  (expected : Work.ExpectsRendering fails) {render : Renderer}

lemma Renderer.Composed.key (h : render.Composed fails changes) (ty : Ty) :
    (render.key ty).Composed fails changes :=
  .bind (.detached (h ty .key)) fun r => .pure r.text

include expected

namespace DistinctTypes

lemma add_composed (h : render.Composed fails changes) (steps : Nat) (d : DistinctTypes) (ty : Ty) :
    (d.add render steps ty).Composed fails changes := by
  refine .bind .get fun s => ?_
  cases components s.table s.expanding steps ty with
  | none => exact .throw expected.exhausted
  | some parts => exact .foldlM d fun d part _ => .bind (h.key part) fun key => .pure _

lemma ofTypes_composed (h : render.Composed fails changes) (steps : Nat) (tys : List Ty) :
    (ofTypes render steps tys).Composed fails changes :=
  .foldlM _ fun d ty _ => add_composed expected h steps d ty

lemma representative_composed (h : render.Composed fails changes) (steps : Nat) (tys : List Ty) :
    (representative render steps tys).Composed fails changes :=
  .bind (ofTypes_composed expected h steps tys) fun _ => .pure _

end DistinctTypes

omit expected in
lemma renderFunction_composed (h : render.Composed fails changes) (sig : Signature)
    (o : RenderOptions) : (renderFunction render sig o).Composed fails changes := by
  have hsignature : (renderSignature render o.nested sig).Composed fails changes := by
    refine .bind (h sig.result _) fun result => .bind (.mapM fun p _ => ?_) fun params => .pure _
    exact .bind (h p.type _) fun _ => .pure _
  unfold renderFunction
  split_ifs
  · exact .table_bind fun _ => .pure _
  · exact .bind (.inScope _ hsignature) fun _ => .pure _

omit expected in
lemma renderAlias_composed (h : render.Composed fails changes) (id : Nat) (symbol : Symbol)
    (args : List Ty) (o : RenderOptions) :
    (renderAlias render id symbol args o).Composed fails changes := by
  unfold renderAlias
  cases symbol.aliased with
  | none => exact .pure _
  | some body =>
      refine .bind .get fun s => ?_
      split_ifs
      · exact .bind (.reportUnsupported _) fun _ => .pure _
      · exact .expanding id (h _ _)
      · exact .expanding id (h _ _)

lemma renderNominal_composed (h : render.Composed fails changes) (id : Nat) (symbol : Symbol)
    (args : List Ty) (o : RenderOptions) :
    (renderNominal render id symbol args o).Composed fails changes := by
  refine .bind (.nameOf expected.foreign id) fun name => ?_
  cases name with
  | none => exact .pure _
  | some name =>
      dsimp only
      split_ifs
      · exact .pure _
      · exact .bind (.mapM fun arg _ => .bind (h arg _) fun _ => .pure _) fun _ => .pure _

lemma renderSymbol_composed (h : render.Composed fails changes) (id : Nat) (args : List Ty)
    (o : RenderOptions) : (renderSymbol render id args o).Composed fails changes := by
  refine .table_bind fun table => ?_
  cases table.get? id with
  | none => exact .bind (.reportUnresolved _) fun _ => .pure _
  | some symbol =>
      dsimp only
      cases symbol.kind with
      | «alias» => exact renderAlias_composed h id symbol args o
      | klass | interface | enum => exact renderNominal_composed expected h id symbol args o
      | function | «variable» | typeParameter | nameSpace =>
          exact .bind (.reportUnsupported _) fun _ => .pure _

omit expected in
lemma renderShape_composed (h : render.Composed fails changes) (members : List Member)
    (o : RenderOptions) : (renderShape render members o).Composed fails changes := by
  unfold renderShape
  split
  · exact renderFunction_composed h _ o
  · exact .table_bind fun _ => .pure _

lemma renderUnion_composed (h : render.Composed fails changes) (steps : Nat) (ty : Ty)
    (members : List Ty) (o : RenderOptions) :
    (renderUnion render steps ty members o).Composed fails changes := by
  have hend : ∀ text, (if members.length > 1 then do
      return Rendered.annotated text (ty.text (← Work.table)) o
    else return Rendered.plain text : Work Rendered).Composed fails changes := by
    intro text
    split_ifs
    · exact .table_bind fun _ => .pure _
    · exact .pure _
  refine .bind (DistinctTypes.ofTypes_composed expected h steps members) fun merged => ?_
  refine .bind (.filterM fun member _ => ?_) fun concrete => ?_
  · exact .bind (.detached (h member _)) fun _ => .pure _
  · refine .bind .get fun s => ?_
    dsimp only
    cases shownMember (o.policy.getD s.policy) concrete with
    | none => exact .bind (.pure _) hend
    | some member => exact .bind (h member _) fun _ => .bind (.pure _) hend

/-- **Rendering is put together from operations**, and none of them changes anything for good. -/
theorem renderWithin_composed (depth : Nat) : (renderWithin depth).Composed fails changes := by
  induction depth with
  | zero => exact fun ty o => .throw expected.exhausted
  | succ depth ih =>
      intro ty o
      cases ty with
      | primitive kind => exact .pure _
      | nominal symbol args => exact renderSymbol_composed expected ih symbol args o
      | «alias» symbol => exact renderSymbol_composed expected ih symbol _ o
      | function sig => exact renderFunction_composed ih sig o
      | array element =>
          refine .bind (DistinctTypes.representative_composed expected ih depth _) fun element => ?_
          exact .bind (ih element _) fun _ => .pure _
      | tuple elements =>
          refine .bind (DistinctTypes.representative_composed expected ih depth _) fun element => ?_
          exact .bind (ih element _) fun _ => .table_bind fun _ => .pure _
      | shape members => exact renderShape_composed ih members o
      | param name =>
          simp only [renderWithin]
          cases o.bindings.bind (·.lookup name) with
          | some bound => exact ih bound o
          | none =>
              refine .bind .get fun s => ?_
              split_ifs <;> exact .pure _
      | literal kind text => exact .pure _
      | union members => exact renderUnion_composed expected ih depth _ members o
      | intersection members => exact renderUnion_composed expected ih depth _ members o
      | raw text => exact .pure _

lemma render_composed : Interop.render.Composed fails changes :=
  renderWithin_composed expected depthLimit

lemma distinctTypes_composed (tys : List Ty) : (distinctTypes tys).Composed fails changes :=
  DistinctTypes.ofTypes_composed expected (render_composed expected) depthLimit tys

/-! ## Overloads -/

lemma Slot.ofParam_composed (optional : Bool) (p : Param) :
    (Slot.ofParam optional p).Composed fails changes :=
  .bind (distinctTypes_composed expected _) fun _ => .pure _

lemma Slots.ofParams_composed (params : List Param) :
    (Slots.ofParams params).Composed fails changes :=
  .mapM fun p _ => Slot.ofParam_composed expected false p

/-- Merging parameter lists makes no change that lasts. -/
theorem Slots.foldIn_composed : ∀ (slots : List Slot) (params : List Param),
    (Slots.foldIn slots params).Composed fails changes
  | [], [] => .pure _
  | _ :: _, [] => .pure _
  | [], p :: ps =>
      .bind (Slot.ofParam_composed expected true p) fun _ =>
        .bind (Slots.foldIn_composed [] ps) fun _ => .pure _
  | slot :: slots, p :: ps => by
      have hadd : (slot.add p).Composed fails changes :=
        .bind (DistinctTypes.add_composed expected (render_composed expected) _ _ _)
          fun _ => .pure _
      exact .bind hadd fun _ => .bind (Slots.foldIn_composed slots ps) fun _ => .pure _

lemma mergeSignatures_composed (first : Signature) (others : List Signature) :
    (mergeSignatures first others).Composed fails changes := by
  refine .bind (Slots.ofParams_composed expected _) fun slots => ?_
  refine .bind (distinctTypes_composed expected _) fun results => ?_
  refine .bind (.foldlM _ fun merged sig _ => ?_) fun merged => .pure _
  refine .bind (Slots.foldIn_composed expected _ _) fun slots => ?_
  exact .bind (DistinctTypes.add_composed expected (render_composed expected) _ _ _)
    fun _ => .pure _

end

/-- **Merging overloads changes the place of diagnostics for good, and nothing else.** -/
theorem mergeMembers_composed (members : List Member) :
    (mergeMembers members).Composed (fun _ => True) Session.ChangesPlace := by
  have expected : Work.ExpectsRendering fun _ => True := ⟨trivial, fun _ _ => trivial⟩
  refine .mapM fun group _ => ?_
  cases group with
  | nil => exact .bind .get fun _ => .throw trivial
  | cons first rest =>
      simp only [mergeGroup]
      split
      · refine .bind (.modify ⟨_, rfl⟩) fun _ => ?_
        refine .bind (mergeSignatures_composed expected _ _) fun merged => ?_
        split
        · exact .throw trivial
        · exact .table_bind fun _ => .pure _
      · exact .pure _

end Interop
