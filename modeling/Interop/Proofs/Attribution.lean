import Interop.Proofs.Files
import Interop.Proofs.Walk

/-!
# Where diagnostics point

What is reported while a file is written points to the place that the session is at.  That place is
moved by the symbols of the file, by their members and by the first of several overloads, and by
nothing else; rendering a type leaves it alone, even where it goes through an alias of another file.

* `Session.Attributed` — the place of a session, and all diagnostics in its log, are as they should
  be.
* **`Work.Attributed`** — a computation that keeps a session so, with its rules.
* `renderWithin_attributed`, `mergeMembers_attributed` — types, and overloads.
* **`scopeItems_attributed`** — the declarations of a file.
-/

namespace Interop

/-- **Diagnostics point to places that fit**: those in the log, and the next one.  None is in the log
twice. -/
structure Session.Attributed (table : SymbolTable) (fits : Span → Prop) (s : Session) : Prop where
  table : s.table = table
  position : fits s.position
  entries : ∀ d ∈ s.log.entries, fits d.span
  nodup : s.log.entries.Nodup

section

variable {table : SymbolTable} {fits : Span → Prop}

namespace Session.Attributed

variable {s t : Session}

/-- Only the table, the place and the log matter. -/
lemma congr (h : s.Attributed table fits) (htable : t.table = s.table)
    (hposition : t.position = s.position) (hlog : t.log = s.log) : t.Attributed table fits where
  table := htable.trans h.table
  position := hposition ▸ h.position
  entries := hlog ▸ h.entries
  nodup := hlog ▸ h.nodup

lemma report (h : s.Attributed table fits) {d : Diagnostic} (hd : fits d.span) {log : Log}
    (hlog : s.log.add d = .ok log) : ({ s with log } : Session).Attributed table fits where
  table := h.table
  position := h.position
  entries e he := (Log.mem_add hlog he).elim (h.entries e) fun hsame => hsame ▸ hd
  nodup := by
    unfold Log.add at hlog
    split_ifs at hlog with hmem
    · obtain rfl := Except.ok.inj hlog
      exact h.nodup
    · cases hmode : s.log.mode with
      | failFast => simp [hmode] at hlog
      | batch =>
          rw [hmode] at hlog
          obtain rfl := Except.ok.inj hlog
          exact List.concat_eq_append ▸ h.nodup.concat hmem

end Session.Attributed

/-! ## Computations -/

namespace Work

variable {α β : Type}

/-- **A computation that reports only at places that fit**, and what holds of its result. -/
def Attributed (table : SymbolTable) (fits : Span → Prop) (w : Work α) (Q : α → Prop) : Prop :=
  ∀ s : Session, s.Attributed table fits →
    (w.exec s).2.Attributed table fits ∧ ∀ a, (w.exec s).1 = .ok a → Q a

namespace Attributed

lemma pure {Q : α → Prop} {a : α} (h : Q a) : Attributed table fits (Pure.pure a) Q := by
  intro s hs
  refine ⟨hs, fun b hb => ?_⟩
  obtain rfl := Except.ok.inj hb
  exact h

lemma throw {Q : α → Prop} (failure : Failure) :
    Attributed table fits (MonadExcept.throw failure : Work α) Q :=
  fun _ hs => ⟨hs, fun _ h => by cases h⟩

lemma bind {P : α → Prop} {Q : β → Prop} {w : Work α} {k : α → Work β}
    (hw : w.Attributed table fits P) (hk : ∀ a, P a → (k a).Attributed table fits Q) :
    (w >>= k).Attributed table fits Q := by
  intro s hs
  obtain ⟨ht, hresult⟩ := hw s hs
  rw [exec_bind]
  rcases hrun : w.exec s with ⟨failure | a, t⟩
  · rw [hrun] at ht
    exact ⟨ht, fun _ h => by cases h⟩
  · rw [hrun] at ht hresult
    exact hk a (hresult a rfl) t ht

/-- A computation of whose result nothing has to be known. -/
lemma andThen {P : α → Prop} {Q : β → Prop} {w : Work α} {k : α → Work β}
    (hw : w.Attributed table fits P) (hk : ∀ a, (k a).Attributed table fits Q) :
    (w >>= k).Attributed table fits Q :=
  bind hw fun a _ => hk a

lemma get_bind {Q : α → Prop} {k : Session → Work α}
    (hk : ∀ s, (k s).Attributed table fits Q) : (get >>= k).Attributed table fits Q :=
  fun s hs => hk s s hs

lemma table_bind {Q : α → Prop} {k : SymbolTable → Work α}
    (hk : (k table).Attributed table fits Q) : (Work.table >>= k).Attributed table fits Q := by
  intro s hs
  rw [exec_table_bind, hs.table]
  exact hk s hs

lemma pointAt {span : Span} (h : fits span) :
    (modify (·.pointAt span) : Work Unit).Attributed table fits fun _ => True :=
  fun _ hs => ⟨⟨hs.table, h, hs.entries, hs.nodup⟩, fun _ _ => trivial⟩

/-! ### Reports -/

lemma report {d : Diagnostic} (hd : fits d.span) :
    (Work.report d).Attributed table fits fun _ => True := by
  intro s hs
  rw [exec_report]
  cases hlog : s.log.add d with
  | ok log => exact ⟨hs.report hd hlog, fun _ _ => trivial⟩
  | error failure => exact ⟨hs, fun _ _ => trivial⟩

/-- What is reported at the place of the session points to a place that fits. -/
lemma reportUnsupported (construct : String) :
    (Work.reportUnsupported construct).Attributed table fits fun _ => True :=
  fun s hs => report (d := .unsupported s.position construct) hs.position s hs

lemma reportUnresolved (name : String) :
    (Work.reportUnresolved name).Attributed table fits fun _ => True :=
  fun s hs => report (d := .unresolved s.position name) hs.position s hs

/-! ### Changes that are undone -/

lemma inScope {w : Work α} {Q : α → Prop} (names : List String)
    (hw : w.Attributed table fits Q) : (Work.inScope names w).Attributed table fits Q := by
  intro s hs
  obtain ⟨ht, hresult⟩ := hw (s.pushScope names) (hs.congr rfl rfl rfl)
  exact ⟨ht.congr rfl rfl rfl, hresult⟩

lemma expanding {w : Work α} {Q : α → Prop} (id : Nat)
    (hw : w.Attributed table fits Q) : (Work.expanding id w).Attributed table fits Q := by
  intro s hs
  obtain ⟨ht, hresult⟩ := hw (s.pushAlias id) (hs.congr rfl rfl rfl)
  exact ⟨ht.congr rfl rfl rfl, hresult⟩

lemma detached {w : Work α} {Q : α → Prop} (hw : w.Attributed table fits Q) :
    (Work.detached w).Attributed table fits Q := by
  intro s hs
  obtain ⟨ht, hresult⟩ := hw s.detach (hs.congr rfl rfl rfl)
  exact ⟨ht.congr rfl rfl rfl, hresult⟩

/-! ### Names -/

lemma refer (library : Nat) :
    (modify (·.refer library) : Work Unit).Attributed table fits fun _ => True := by
  refine fun s hs => ⟨?_, fun _ _ => trivial⟩
  rw [exec_modify, refer_eq]
  split_ifs
  · exact hs.congr rfl rfl rfl
  · exact hs

lemma allocate (path : DeclPath) (library : Nat) :
    (Work.allocate path library).Attributed table fits fun _ => True := by
  refine fun s hs => ⟨?_, fun _ _ => trivial⟩
  cases hlib : s.library? library with
  | some lib =>
      rw [exec_allocate hlib]
      exact hs.congr rfl rfl rfl
  | none =>
      rw [exec_allocate_missing hlib]
      exact hs

/-- Naming a symbol reports nothing and moves no place. -/
lemma nameOf (id : Nat) : (Work.nameOf id).Attributed table fits fun _ => True := by
  refine .get_bind fun s => ?_
  split
  · exact .pure trivial
  · split
    · exact .pure trivial
    · split
      · exact .throw _
      · split_ifs
        · exact .andThen (.refer _) fun _ => .andThen (.allocate _ _) fun _ => .pure trivial
        · exact .pure trivial

/-! ### Lists -/

lemma mapM {f : α → Work β} {Q : β → Prop} : ∀ {xs : List α},
    (∀ x ∈ xs, (f x).Attributed table fits Q) →
      (xs.mapM f).Attributed table fits fun ys => ∀ y ∈ ys, Q y
  | [], _ => by
      rw [List.mapM_nil]
      exact .pure (by simp)
  | x :: xs, h => by
      rw [List.mapM_cons]
      refine .bind (h x List.mem_cons_self) fun y hy => ?_
      refine .bind (mapM fun z hz => h z (List.mem_cons_of_mem _ hz)) fun ys hys => ?_
      exact .pure (List.forall_mem_cons.mpr ⟨hy, hys⟩)

lemma forM {f : α → Work PUnit} : ∀ {xs : List α},
    (∀ x ∈ xs, (f x).Attributed table fits fun _ => True) →
      (xs.forM f).Attributed table fits fun _ => True
  | [], _ => .pure trivial
  | x :: _, h => .andThen (h x List.mem_cons_self) fun _ =>
      forM fun y hy => h y (List.mem_cons_of_mem _ hy)

lemma foldlM {f : β → α → Work β} : ∀ {xs : List α} (b : β),
    (∀ b, ∀ x ∈ xs, (f b x).Attributed table fits fun _ => True) →
      (xs.foldlM f b).Attributed table fits fun _ => True
  | [], _, _ => .pure trivial
  | x :: _, b, h => by
      rw [List.foldlM_cons]
      exact .andThen (h b x List.mem_cons_self) fun b' =>
        foldlM b' fun b y hy => h b y (List.mem_cons_of_mem _ hy)

lemma filterM {f : α → Work Bool} {xs : List α}
    (h : ∀ x ∈ xs, (f x).Attributed table fits fun _ => True) :
    (xs.filterM f).Attributed table fits fun _ => True := by
  rw [filterM_eq_foldlM]
  exact .andThen (.foldlM [] fun kept x hx => .andThen (h x hx) fun _ => .pure trivial)
    fun _ => .pure trivial

end Attributed

end Work

/-! ## Rendering -/

/-- A renderer that reports only at places that fit. -/
def Renderer.Attributed (table : SymbolTable) (fits : Span → Prop) (render : Renderer) : Prop :=
  ∀ ty o, (render ty o).Attributed table fits fun _ => True

variable {render : Renderer}

lemma Renderer.Attributed.key (h : render.Attributed table fits) (ty : Ty) :
    (render.key ty).Attributed table fits fun _ => True :=
  .andThen (.detached (h ty .key)) fun _ => .pure trivial

namespace DistinctTypes

lemma add_attributed (h : render.Attributed table fits) (steps : Nat) (d : DistinctTypes)
    (ty : Ty) : (d.add render steps ty).Attributed table fits fun _ => True := by
  refine .get_bind fun s => ?_
  cases components s.table s.expanding steps ty with
  | none => exact .throw _
  | some parts =>
      exact .foldlM d fun d part _ => .andThen (h.key part) fun _ => .pure trivial

lemma ofTypes_attributed (h : render.Attributed table fits) (steps : Nat) (tys : List Ty) :
    (ofTypes render steps tys).Attributed table fits fun _ => True :=
  .foldlM _ fun d ty _ => add_attributed h steps d ty

lemma representative_attributed (h : render.Attributed table fits) (steps : Nat)
    (tys : List Ty) : (representative render steps tys).Attributed table fits fun _ => True :=
  .andThen (ofTypes_attributed h steps tys) fun _ => .pure trivial

end DistinctTypes

lemma renderFunction_attributed (h : render.Attributed table fits) (sig : Signature)
    (o : RenderOptions) : (renderFunction render sig o).Attributed table fits fun _ => True := by
  have hsignature : (renderSignature render o.nested sig).Attributed table fits fun _ => True := by
    refine .andThen (h sig.result _) fun result => ?_
    refine .andThen (.mapM (Q := fun _ => True) fun p _ => ?_) fun params => .pure trivial
    exact .andThen (h p.type _) fun _ => .pure trivial
  unfold renderFunction
  split_ifs
  · exact .table_bind (.pure trivial)
  · exact .andThen (.inScope _ hsignature) fun _ => .pure trivial

lemma renderAlias_attributed (h : render.Attributed table fits) (id : Nat) (symbol : Symbol)
    (args : List Ty) (o : RenderOptions) :
    (renderAlias render id symbol args o).Attributed table fits fun _ => True := by
  unfold renderAlias
  cases symbol.aliased with
  | none => exact .pure trivial
  | some body =>
      refine .get_bind fun s => ?_
      split_ifs
      · exact .andThen (.reportUnsupported _) fun _ => .pure trivial
      · exact .expanding id (h _ _)
      · exact .expanding id (h _ _)

lemma renderNominal_attributed (h : render.Attributed table fits) (id : Nat) (symbol : Symbol)
    (args : List Ty) (o : RenderOptions) :
    (renderNominal render id symbol args o).Attributed table fits fun _ => True := by
  refine .andThen (.nameOf id) fun name => ?_
  cases name with
  | none => exact .pure trivial
  | some name =>
      dsimp only
      split_ifs
      · exact .pure trivial
      · refine .andThen (.mapM (Q := fun _ => True) fun arg _ => ?_) fun _ => .pure trivial
        exact .andThen (h arg _) fun _ => .pure trivial

lemma renderSymbol_attributed (h : render.Attributed table fits) (id : Nat) (args : List Ty)
    (o : RenderOptions) : (renderSymbol render id args o).Attributed table fits fun _ => True := by
  refine .table_bind ?_
  cases table.get? id with
  | none => exact .andThen (.reportUnresolved _) fun _ => .pure trivial
  | some symbol =>
      dsimp only
      cases symbol.kind with
      | «alias» => exact renderAlias_attributed h id symbol args o
      | klass | interface | enum => exact renderNominal_attributed h id symbol args o
      | function | «variable» | typeParameter | nameSpace =>
          exact .andThen (.reportUnsupported _) fun _ => .pure trivial

lemma renderShape_attributed (h : render.Attributed table fits) (members : List Member)
    (o : RenderOptions) : (renderShape render members o).Attributed table fits fun _ => True := by
  unfold renderShape
  split
  · exact renderFunction_attributed h _ o
  · exact .table_bind (.pure trivial)

lemma renderUnion_attributed (h : render.Attributed table fits) (steps : Nat) (ty : Ty)
    (members : List Ty) (o : RenderOptions) :
    (renderUnion render steps ty members o).Attributed table fits fun _ => True := by
  have hend : ∀ text, (if members.length > 1 then do
      return Rendered.annotated text (ty.text (← Work.table)) o
    else return Rendered.plain text : Work Rendered).Attributed table fits fun _ => True := by
    intro text
    split_ifs
    · exact .table_bind (.pure trivial)
    · exact .pure trivial
  refine .andThen (DistinctTypes.ofTypes_attributed h steps members) fun merged => ?_
  refine .andThen (.filterM fun member _ => ?_) fun concrete => ?_
  · exact .andThen (.detached (h member _)) fun _ => .pure trivial
  · refine .get_bind fun s => ?_
    dsimp only
    cases shownMember (o.policy.getD s.policy) concrete with
    | none => exact .andThen (.pure (Q := fun _ => True) trivial) hend
    | some member =>
        exact .andThen (h member _) fun _ => .andThen (.pure (Q := fun _ => True) trivial) hend

/-- **Rendering reports at the place of the session and leaves it alone**, however deep it may go. -/
theorem renderWithin_attributed (depth : Nat) : (renderWithin depth).Attributed table fits := by
  induction depth with
  | zero => exact fun ty o => .throw _
  | succ depth ih =>
      intro ty o
      cases ty with
      | primitive kind => exact .pure trivial
      | nominal symbol args => exact renderSymbol_attributed ih symbol args o
      | «alias» symbol => exact renderSymbol_attributed ih symbol _ o
      | function sig => exact renderFunction_attributed ih sig o
      | array element =>
          refine .andThen (DistinctTypes.representative_attributed ih depth [element]) fun element =>
            ?_
          exact .andThen (ih element _) fun _ => .pure trivial
      | tuple elements =>
          refine .andThen (DistinctTypes.representative_attributed ih depth elements) fun element => ?_
          exact .andThen (ih element _) fun _ => .table_bind (.pure trivial)
      | shape members => exact renderShape_attributed ih members o
      | param name =>
          simp only [renderWithin]
          cases o.bindings.bind (·.lookup name) with
          | some bound => exact ih bound o
          | none =>
              refine .get_bind fun s => ?_
              split_ifs <;> exact .pure trivial
      | literal kind text => exact .pure trivial
      | union members => exact renderUnion_attributed ih depth _ members o
      | intersection members => exact renderUnion_attributed ih depth _ members o
      | raw text => exact .pure trivial

lemma render_attributed : Interop.render.Attributed table fits :=
  renderWithin_attributed depthLimit

lemma distinctTypes_attributed (tys : List Ty) :
    (distinctTypes tys).Attributed table fits fun _ => True :=
  DistinctTypes.ofTypes_attributed render_attributed depthLimit tys

lemma declaredType_attributed (ty : Ty) :
    (declaredType ty).Attributed table fits fun _ => True :=
  .andThen (render_attributed ty {}) fun _ => .pure trivial

/-! ## Overloads -/

lemma Slots.foldIn_attributed : ∀ (slots : List Slot) (params : List Param),
    (Slots.foldIn slots params).Attributed table fits fun _ => True
  | [], [] => .pure trivial
  | _ :: _, [] => .pure trivial
  | [], _ :: ps =>
      .andThen (.andThen (distinctTypes_attributed _) fun _ => .pure (Q := fun _ => True) trivial)
        fun _ => .andThen (Slots.foldIn_attributed [] ps) fun _ => .pure trivial
  | _ :: slots, _ :: ps =>
      .andThen (.andThen (DistinctTypes.add_attributed render_attributed _ _ _) fun _ =>
          .pure (Q := fun _ => True) trivial)
        fun _ => .andThen (Slots.foldIn_attributed slots ps) fun _ => .pure trivial

lemma mergeSignatures_attributed (first : Signature) (others : List Signature) :
    (mergeSignatures first others).Attributed table fits fun _ => True := by
  refine .andThen (.mapM (Q := fun _ => True) fun p _ => ?_) fun slots => ?_
  · exact .andThen (distinctTypes_attributed _) fun _ => .pure trivial
  refine .andThen (distinctTypes_attributed _) fun results => ?_
  refine .andThen (.foldlM _ fun merged sig _ => ?_) fun merged => .pure trivial
  refine .andThen (Slots.foldIn_attributed _ _) fun slots => ?_
  exact .andThen (DistinctTypes.add_attributed render_attributed _ _ _) fun _ => .pure trivial

/-- A group stands where its first member does, and so does what is reported on the way. -/
lemma mergeGroup_attributed : ∀ {group : List Member}, (∀ m ∈ group, fits m.span) →
    (mergeGroup group).Attributed table fits fun merged => fits merged.effective.span
  | [], _ => .get_bind fun _ => .throw _
  | first :: rest, h => by
      have hfirst := h first List.mem_cons_self
      simp only [mergeGroup]
      split
      · refine .andThen (.pointAt hfirst) fun _ => ?_
        refine .andThen (mergeSignatures_attributed _ _) fun merged => ?_
        split
        · exact .throw _
        · exact .table_bind (.pure hfirst)
      · exact .pure hfirst

lemma mergeMembers_attributed {members : List Member} (h : ∀ m ∈ members, fits m.span) :
    (mergeMembers members).Attributed table fits fun groups =>
      ∀ group ∈ groups, fits group.effective.span :=
  .mapM fun _ hgroup => mergeGroup_attributed fun m hm => h m (mem_of_mem_groupMembers hgroup hm)

/-! ## Declarations -/

namespace SignatureText

lemma parts_attributed (sig : Signature) (generics : String) :
    (parts sig generics).Attributed table fits fun _ => True := by
  refine .andThen (declaredType_attributed _) fun result => ?_
  refine .andThen (.mapM (Q := fun _ => True) fun p _ => ?_) fun params => .pure trivial
  exact .andThen (declaredType_attributed _) fun _ => .pure trivial

lemma of_attributed (sig : Signature) :
    (SignatureText.of sig).Attributed table fits fun _ => True :=
  .inScope _ (parts_attributed sig _)

end SignatureText

lemma memberDecls_attributed (className : String) {group : MemberGroup}
    (h : fits group.effective.span) :
    (memberDecls className group).Attributed table fits fun _ => True := by
  refine .andThen (.pointAt h) fun _ => ?_
  dsimp only
  cases group.effective.kind with
  | property => exact .andThen (declaredType_attributed _) fun _ => .pure trivial
  | method | call => exact .andThen (SignatureText.of_attributed _) fun _ => .pure trivial
  | construct | index => exact .andThen (SignatureText.parts_attributed _ _) fun _ => .pure trivial
  | nested => exact .pure trivial

lemma Heritage.of_attributed (symbol : Symbol) :
    (Heritage.of symbol).Attributed table fits fun _ => True := by
  refine .foldlM _ fun h base _ => .table_bind ?_
  split_ifs
  · exact .andThen (declaredType_attributed _) fun _ => .pure trivial
  · exact .andThen (declaredType_attributed _) fun _ => .pure trivial
  · exact .pure trivial

section

variable {symbol : Symbol} (hmembers : ∀ m ∈ symbol.members, fits m.span) (id : Nat)
include hmembers

lemma classItem_attributed : (classItem id symbol).Attributed table fits fun _ => True := by
  refine .andThen (.nameOf id) fun name => ?_
  cases name with
  | none => exact .pure trivial
  | some name =>
      refine .inScope _ (.andThen (Heritage.of_attributed symbol) fun heritage => .table_bind ?_)
      refine .bind (mergeMembers_attributed hmembers) fun groups hgroups => ?_
      refine .andThen (.mapM (Q := fun _ => True) fun group hgroup => ?_) fun _ => .pure trivial
      exact memberDecls_attributed name (hgroups group hgroup)

lemma functionItems_attributed :
    (functionItems id symbol).Attributed table fits fun _ => True := by
  have hitem : ∀ (name : Option String) (group : MemberGroup), fits group.effective.span →
      (functionItem id symbol name group).Attributed table fits fun _ => True := by
    intro name group hgroup
    unfold functionItem
    split
    · exact .pure trivial
    · refine .andThen (.pointAt hgroup) fun _ => ?_
      refine .andThen (SignatureText.of_attributed _) fun _ => ?_
      cases name with
      | none => exact .pure trivial
      | some name => exact .table_bind (.pure trivial)
  have hrest : Work.Attributed table fits (do
      let name ← Work.nameOf id
      let groups ← mergeMembers symbol.members
      return (← groups.mapM (functionItem id symbol name)).flatten) fun _ => True := by
    refine .andThen (.nameOf id) fun name => ?_
    refine .bind (mergeMembers_attributed hmembers) fun groups hgroups => ?_
    exact .andThen (.mapM fun group hgroup => hitem name group (hgroups group hgroup)) fun _ =>
      .pure trivial
  unfold functionItems
  split_ifs
  · exact .andThen (.throw (Q := fun _ => True) _) fun _ => hrest
  · exact hrest

omit hmembers in
lemma variableItems_attributed :
    (variableItems id symbol).Attributed table fits fun _ => True := by
  unfold variableItems
  split
  · exact .throw _
  · refine .andThen (declaredType_attributed _) fun type => ?_
    refine .andThen (.nameOf id) fun name => ?_
    cases name with
    | none => exact .pure trivial
    | some name => exact .table_bind (.pure trivial)

/-- A symbol moves the place to where it stands; what is reported of it points there, or to one of
its members. -/
lemma symbolItems_attributed {inside : Nat → Work (List Item)} (hspan : fits symbol.span)
    (h : ∀ inner, (inside inner).Attributed table fits fun _ => True) :
    (symbolItems inside id symbol).Attributed table fits fun _ => True := by
  refine .andThen (.pointAt hspan) fun _ => ?_
  cases symbol.kind with
  | nameSpace => exact h id
  | klass | interface | enum =>
      exact .andThen (classItem_attributed hmembers id) fun _ => .pure trivial
  | function => exact functionItems_attributed hmembers id
  | «variable» => exact variableItems_attributed id
  | «alias» | typeParameter => exact .pure trivial

end

/-- **The declarations of a file report only at the places of its symbols and members.** -/
theorem scopeItems_attributed {file : Nat}
    (hfile : ∀ id s, table.get? id = some s → s.file = file →
      fits s.span ∧ ∀ m ∈ s.members, fits m.span) (levels : Nat) : ∀ parent : Option Nat,
    (scopeItems levels file parent).Attributed table fits fun _ => True := by
  induction levels with
  | zero => exact fun _ => .pure trivial
  | succ levels ih =>
      intro parent
      refine .table_bind (.andThen (.mapM (Q := fun _ => True) fun id hid => ?_) fun _ =>
        .pure trivial)
      obtain ⟨s, hs, hsfile, -⟩ := SymbolTable.mem_children.mp hid
      obtain ⟨hspan, hmembers⟩ := hfile id s hs hsfile
      simp only [hs]
      exact symbolItems_attributed hmembers id hspan fun inner => ih (some inner)

end

end Interop
