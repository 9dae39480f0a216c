import Interop.Proofs.Following
import Interop.Proofs.Rendering
import Interop.Proofs.TypeParameters

/-!
# Rendering once more

A type that has been rendered is rendered in the same way whenever it is rendered again: names that
were given stay, and what was reported is not reported twice.  So it is in any session, also one in
which names are given on the way.  It stays the same in another scope as well, if the type does not
mention the type parameters in which the scopes differ.

* `Session.Grows` — what work does to a session: names and reports are added, all else stays.
* `Session.Recalls` — a session that knows what was done in another, and whose scopes may differ in
  some names.
* **`Work.Repeats`** — a computation that does the same once more; `Work.Repeats.bind`,
  `Work.Repeats.mapM`, … build it from its parts.
* **`renderWithin_repeats`** — rendering with a bound does.
-/

namespace Interop

open Work

/-! ## Sessions that know what was done -/

namespace Session

/-- A session with what another one has: its table and its place, and at least its names and
reports. -/
structure Extends (s t : Session) : Prop where
  table : t.table = s.table
  policy : t.policy = s.policy
  assignments : t.assignments = s.assignments
  expanding : t.expanding = s.expanding
  position : t.position = s.position
  mode : t.log.mode = s.log.mode
  entries : s.log.entries ⊆ t.log.entries
  size : t.libraries.size = s.libraries.size
  record : ∀ path record, s.registry.find? path = some record →
    t.registry.find? path = some record

/-- **What work does to a session**, once it is done. -/
structure Grows (s t : Session) : Prop extends s.Extends t where
  scopes : t.scopes = s.scopes

/-- **A session that knows what was done in another.**  Apart from hidden names, the same type
parameters are in scope. -/
structure Recalls (hidden : List String) (s t : Session) : Prop extends s.Extends t where
  inScope : ∀ name, name ∉ hidden → t.inScope name = s.inScope name

variable {hidden : List String} {s t u : Session}

lemma Extends.refl (s : Session) : s.Extends s :=
  ⟨rfl, rfl, rfl, rfl, rfl, rfl, List.Subset.refl _, rfl, fun _ _ h => h⟩

lemma Extends.trans (h : s.Extends t) (k : t.Extends u) : s.Extends u :=
  ⟨k.table.trans h.table, k.policy.trans h.policy, k.assignments.trans h.assignments,
    k.expanding.trans h.expanding, k.position.trans h.position, k.mode.trans h.mode,
    List.Subset.trans h.entries k.entries, k.size.trans h.size,
    fun path record hr => k.record path record (h.record path record hr)⟩

lemma Grows.refl (s : Session) : s.Grows s :=
  ⟨.refl s, rfl⟩

lemma Grows.trans (h : s.Grows t) (k : t.Grows u) : s.Grows u :=
  ⟨h.toExtends.trans k.toExtends, k.scopes.trans h.scopes⟩

lemma Grows.inScope (h : s.Grows t) (name : String) : t.inScope name = s.inScope name := by
  rw [Session.inScope, Session.inScope, h.scopes]

lemma Grows.recalls (h : s.Grows t) : s.Recalls hidden t :=
  ⟨h.toExtends, fun name _ => h.inScope name⟩

/-- What was known before work was done is known after it. -/
lemma Grows.trans_recalls (h : s.Grows t) (k : t.Recalls hidden u) : s.Recalls hidden u :=
  ⟨h.toExtends.trans k.toExtends, fun name hname => (k.inScope name hname).trans (h.inScope name)⟩

/-- What is known stays known. -/
lemma Recalls.trans_grows (h : s.Recalls hidden t) (k : t.Grows u) : s.Recalls hidden u :=
  ⟨h.toExtends.trans k.toExtends, fun name hname => (k.inScope name).trans (h.inScope name hname)⟩

lemma inScope_pushScope (s : Session) (names : List String) (name : String) :
    (s.pushScope names).inScope name = (names.contains name || s.inScope name) :=
  rfl

/-- Names that are in scope anyway are not hidden by a scope around them. -/
lemma recalls_pushScope (s : Session) (names : List String) :
    s.Recalls (names.filter fun name => !s.inScope name) (s.pushScope names) := by
  refine ⟨⟨rfl, rfl, rfl, rfl, rfl, rfl, List.Subset.refl _, rfl, fun _ _ h => h⟩, ?_⟩
  intro name hname
  rw [inScope_pushScope]
  cases hs : s.inScope name with
  | true => simp
  | false =>
      simp only [List.mem_filter, hs, Bool.not_false, and_true] at hname
      simpa using hname

end Session

/-! ## Computations that repeat themselves -/

/-- A path that was asked for has the name that was the answer. -/
lemma Registry.find?_answer (registry : Registry) (path : DeclPath) (library : Library) :
    ∃ record, (registry.allocate path library).2.1.find? path = some record ∧
      record.name = (registry.allocate path library).1 := by
  cases h : registry.find? path with
  | some record =>
      rw [allocate_of_find? h]
      exact ⟨record, h, rfl⟩
  | none =>
      rw [allocate_of_new h]
      exact ⟨_, by rw [find?_append _ _ _ _ h, if_pos rfl], rfl⟩

namespace Work

variable {α β : Type} {table : SymbolTable} {hidden : List String}

/-- **A computation that does the same once more.**  If it succeeds over the table, it has added to
the session, and it gives the same result again in every session that knows what it did. -/
def Repeats (table : SymbolTable) (hidden : List String) (w : Work α) (Q : α → Prop) : Prop :=
  ∀ s a t, s.table = table → w.exec s = (.ok a, t) →
    s.Grows t ∧ Q a ∧ ∀ u : Session, t.Recalls hidden u → (w.exec u).1 = .ok a

namespace Repeats

lemma pure {Q : α → Prop} {a : α} (ha : Q a) : Repeats table hidden (Pure.pure a) Q := by
  intro s b t _ h
  obtain ⟨hout, rfl⟩ := Prod.mk.inj h
  obtain rfl := Except.ok.inj hout
  exact ⟨.refl s, ha, fun _ _ => rfl⟩

lemma throw {Q : α → Prop} (failure : Failure) :
    Repeats table hidden (MonadExcept.throw failure : Work α) Q :=
  fun _ _ _ _ h => by cases h

lemma weaken {P Q : α → Prop} {w : Work α} (hw : w.Repeats table hidden P)
    (h : ∀ a, P a → Q a) : w.Repeats table hidden Q := fun s a t hs hrun =>
  ⟨(hw s a t hs hrun).1, h a (hw s a t hs hrun).2.1, (hw s a t hs hrun).2.2⟩

/-- **Composition.**  What the first computation did is known to the second one when both are run
again. -/
lemma bind {P : α → Prop} {Q : β → Prop} {w : Work α} {k : α → Work β}
    (hw : w.Repeats table hidden P) (hk : ∀ a, P a → (k a).Repeats table hidden Q) :
    (w >>= k).Repeats table hidden Q := by
  intro s b t hs h
  rw [exec_bind] at h
  rcases hrun : w.exec s with ⟨failure | a, s'⟩
  · rw [hrun] at h
    cases h
  · rw [hrun] at h
    obtain ⟨hgrows, ha, hagain⟩ := hw s a s' hs hrun
    obtain ⟨hgrows', hb, hagain'⟩ := hk a ha s' b t (hgrows.table.trans hs) h
    refine ⟨hgrows.trans hgrows', hb, fun u hu => ?_⟩
    have hfirst := hagain u (hgrows'.trans_recalls hu)
    rw [exec_bind]
    rcases hrun' : w.exec u with ⟨failure | a', u'⟩
    · rw [hrun'] at hfirst
      cases hfirst
    · rw [hrun'] at hfirst
      obtain rfl := Except.ok.inj hfirst
      have htable : u.table = table := hu.table.trans ((hgrows.trans hgrows').table.trans hs)
      exact hagain' u' (hu.trans_grows (hw u a' u' htable hrun').1)

/-- A computation whose result is made into another one. -/
lemma map {P : α → Prop} {Q : β → Prop} {w : Work α} {f : α → β}
    (hw : w.Repeats table hidden P) (h : ∀ a, P a → Q (f a)) :
    (w >>= fun a => Pure.pure (f a)).Repeats table hidden Q :=
  bind hw fun a ha => pure (h a ha)

/-- What is read of a session is what its successors have too. -/
lemma get_bind {Q : α → Prop} {k : Session → Work α}
    (hsame : ∀ s t : Session, s.Extends t → k t = k s)
    (hk : ∀ s, s.table = table → (k s).Repeats table hidden Q) :
    (get >>= k).Repeats table hidden Q := by
  intro s a t hs h
  obtain ⟨hgrows, ha, hagain⟩ := hk s hs s a t hs h
  refine ⟨hgrows, ha, fun u hu => ?_⟩
  rw [exec_get_bind, hsame s u (hgrows.toExtends.trans hu.toExtends)]
  exact hagain u hu

lemma table_bind {Q : α → Prop} {k : SymbolTable → Work α} (hk : (k table).Repeats table hidden Q) :
    (Work.table >>= k).Repeats table hidden Q := by
  intro s a t hs h
  rw [exec_table_bind, hs] at h
  obtain ⟨hgrows, ha, hagain⟩ := hk s a t hs h
  refine ⟨hgrows, ha, fun u hu => ?_⟩
  rw [exec_table_bind, hu.table, hgrows.table, hs]
  exact hagain u hu

/-! ### Reports -/

lemma report (d : Diagnostic) : (Work.report d).Repeats table hidden fun _ => True := by
  intro s a t hs h
  rw [exec_report] at h
  cases hadd : s.log.add d with
  | error failure =>
      rw [hadd] at h
      cases h
  | ok log =>
      rw [hadd] at h
      obtain ⟨-, rfl⟩ := Prod.mk.inj h
      obtain ⟨hmem, hsub⟩ := Log.entries_add hadd
      refine ⟨⟨{ Session.Extends.refl s with mode := Log.mode_add hadd, entries := hsub }, rfl⟩,
        trivial, fun u hu => ?_⟩
      rw [exec_report, Log.add_of_mem (hu.entries hmem)]

lemma reportUnsupported (construct : String) :
    (Work.reportUnsupported construct).Repeats table hidden fun _ => True :=
  get_bind (fun _ _ h => by rw [h.position]) fun _ _ => report _

lemma reportUnresolved (name : String) :
    (Work.reportUnresolved name).Repeats table hidden fun _ => True :=
  get_bind (fun _ _ h => by rw [h.position]) fun _ _ => report _

/-! ### Between a change and its undoing -/

/-- Inside a change that is undone, and that may bring hidden names into scope. -/
lemma within {inner : List String} {Q : α → Prop} {w : Work α} {enter leave : Session → Session}
    (htable : ∀ s : Session, (enter s).table = s.table)
    (hleave : ∀ s t : Session, (enter s).Grows t → s.Grows (leave t) ∧
      ∀ u, (leave t).Recalls hidden u → t.Recalls inner (enter u))
    (hw : w.Repeats table inner Q) : (Work.within enter leave w).Repeats table hidden Q := by
  intro s a t hs h
  rw [exec_within] at h
  rcases hrun : w.exec (enter s) with ⟨out, t'⟩
  rw [hrun] at h
  obtain ⟨rfl, rfl⟩ := Prod.mk.inj h
  obtain ⟨hgrows, ha, hagain⟩ := hw (enter s) a t' ((htable s).trans hs) hrun
  obtain ⟨hgrows', hrecalls⟩ := hleave s t' hgrows
  refine ⟨hgrows', ha, fun u hu => ?_⟩
  rw [exec_within]
  exact hagain (enter u) (hrecalls u hu)

/-- The names that a scope declares are not hidden inside it. -/
lemma inScope {Q : α → Prop} {w : Work α} (names : List String)
    (hw : w.Repeats table (hidden.filter fun name => !names.contains name) Q) :
    (Work.inScope names w).Repeats table hidden Q := by
  refine within (fun _ => rfl) (fun s t hgrows => ?_) hw
  have hscopes : t.scopes = names :: s.scopes := hgrows.scopes
  refine ⟨⟨{ hgrows with }, congrArg List.tail hscopes⟩, fun u hu => ⟨{ hu with }, ?_⟩⟩
  intro name hname
  have hinner : t.inScope name = (names.contains name || t.popScope.inScope name) := by
    simp [Session.inScope, Session.popScope, hscopes]
  rw [Session.inScope_pushScope, hinner]
  cases hnames : names.contains name with
  | true => rfl
  | false =>
      exact hu.inScope name fun hm => hname (List.mem_filter.mpr ⟨hm, by rw [hnames]; rfl⟩)

lemma expanding {Q : α → Prop} {w : Work α} (id : Nat) (hw : w.Repeats table hidden Q) :
    (Work.expanding id w).Repeats table hidden Q := by
  refine within (fun _ => rfl) (fun s t hgrows => ?_) hw
  have hexpanding : t.expanding = id :: s.expanding := hgrows.expanding
  refine ⟨{ hgrows with expanding := congrArg List.tail hexpanding }, fun u hu => ?_⟩
  refine ⟨{ hu with expanding := ?_ }, hu.inScope⟩
  show id :: u.expanding = t.expanding
  rw [hu.expanding, hexpanding]
  exact congrArg (id :: List.tail ·) hexpanding

lemma detached {Q : α → Prop} {w : Work α} (hw : w.Repeats table hidden Q) :
    (Work.detached w).Repeats table hidden Q :=
  within (fun _ => rfl) (fun _ _ hgrows => ⟨{ hgrows with }, fun _ hu => { hu with }⟩) hw

/-- A choice by whether a type parameter is in scope, if that is not hidden. -/
lemma ofScope {name : String} (hname : name ∉ hidden) {a b : α} :
    (do if (← get).inScope name then return a else return b : Work α).Repeats table hidden
      fun _ => True := by
  have hrun : ∀ s : Session, (do if (← get).inScope name then return a else return b : Work α).exec
      s = (.ok (if s.inScope name then a else b), s) := by
    intro s
    rw [exec_get_bind]
    split_ifs <;> rfl
  intro s c t _ h
  rw [hrun] at h
  obtain ⟨hout, rfl⟩ := Prod.mk.inj h
  obtain rfl := Except.ok.inj hout
  exact ⟨.refl s, trivial, fun u hu => by rw [hrun, hu.inScope name hname]⟩

/-! ### Names -/

lemma refer (library : Nat) :
    (modify (·.refer library) : Work Unit).Repeats table hidden fun _ => True := by
  intro s a t _ h
  obtain ⟨-, rfl⟩ := Prod.mk.inj h
  refine ⟨?_, trivial, fun _ _ => rfl⟩
  show s.Grows (s.refer library)
  rw [refer_eq]
  split_ifs
  · exact ⟨{ Session.Extends.refl s with }, rfl⟩
  · exact .refl s

/-- A name is given once: a path that was named has its name in every library that is there. -/
lemma allocate (path : DeclPath) (library : Nat) :
    (Work.allocate path library).Repeats table hidden fun _ => True := by
  intro s name t _ h
  cases hlib : s.library? library with
  | none =>
      rw [exec_allocate_missing hlib] at h
      cases h
  | some lib =>
      rw [exec_allocate hlib] at h
      obtain ⟨hname, rfl⟩ := Prod.mk.inj h
      obtain rfl := Except.ok.inj hname
      obtain ⟨record, hrecord, hname⟩ := s.registry.find?_answer path lib
      refine ⟨⟨{ Session.Extends.refl s with
        size := Array.size_setIfInBounds
        record := (s.registry.find?_allocate path lib).2 }, rfl⟩, trivial, fun u hu => ?_⟩
      have hlt : library < u.libraries.size := by
        rw [hu.size]
        simpa using (Array.getElem?_eq_some_iff.mp hlib).1
      have hlib' : u.library? library = some u.libraries[library] := Array.getElem?_eq_getElem hlt
      rw [exec_allocate_of_find? hlib' (hu.record path record hrecord), hname]

lemma nameOf (id : Nat) : (Work.nameOf id).Repeats table hidden fun _ => True := by
  refine get_bind (fun s t h => ?_) fun s _ => ?_
  · simp only [h.table, Session.libraryOf?, h.assignments]
  · cases s.table.get? id with
    | none => exact pure trivial
    | some symbol =>
        dsimp only
        cases symbol.externalName with
        | some target => exact pure trivial
        | none =>
            dsimp only
            cases s.libraryOf? symbol.file with
            | none => exact throw _
            | some library =>
                dsimp only
                split_ifs
                · exact bind (refer library) fun _ _ => map (allocate _ library) fun _ _ => trivial
                · exact pure trivial

/-! ### Lists -/

lemma mapM {f : α → Work β} {Q : β → Prop} : ∀ {xs : List α},
    (∀ x ∈ xs, (f x).Repeats table hidden Q) →
      (xs.mapM f).Repeats table hidden fun ys => ∀ y ∈ ys, Q y
  | [], _ => by
      rw [List.mapM_nil]
      exact pure (by simp)
  | x :: xs, h => by
      rw [List.mapM_cons]
      refine bind (h x List.mem_cons_self) fun y hy => ?_
      exact map (mapM fun z hz => h z (List.mem_cons_of_mem _ hz)) fun ys hys =>
        List.forall_mem_cons.mpr ⟨hy, hys⟩

lemma foldlM {f : β → α → Work β} {P : β → Prop} : ∀ {xs : List α} {b : β}, P b →
    (∀ b, P b → ∀ x ∈ xs, (f b x).Repeats table hidden P) →
      (xs.foldlM f b).Repeats table hidden P
  | [], _, hb, _ => pure hb
  | x :: xs, b, hb, h => by
      rw [List.foldlM_cons]
      exact bind (h b hb x List.mem_cons_self) fun b' hb' =>
        foldlM hb' fun b hb y hy => h b hb y (List.mem_cons_of_mem _ hy)

lemma filterM {f : α → Work Bool} {xs : List α}
    (h : ∀ x ∈ xs, (f x).Repeats table hidden fun _ => True) :
    (xs.filterM f).Repeats table hidden fun ys => ys ⊆ xs := by
  rw [filterM_eq_foldlM]
  refine map (foldlM (P := (· ⊆ xs)) (List.nil_subset xs) fun kept hkept x hx =>
    map (h x hx) fun keeps _ => ?_) fun kept hkept y hy => hkept (List.mem_reverse.mp hy)
  cases keeps with
  | false => exact hkept
  | true => exact List.cons_subset.mpr ⟨hx, hkept⟩

end Repeats

end Work

/-! ## Rendering -/

/-- No hidden type parameter is mentioned. -/
def Ty.Avoids (ty : Ty) (hidden : List String) : Prop :=
  ∀ name ∈ hidden, name ∉ ty.freeParams

/-- Aliases mention no hidden type parameters but their own. -/
def SymbolTable.AliasesAvoid (table : SymbolTable) (hidden : List String) : Prop :=
  ∀ id symbol body, table.get? id = some symbol → symbol.aliased = some body →
    ∀ name ∈ hidden, name ∈ body.freeParams → name ∈ symbol.typeParams

/-- A renderer that does the same once more, for types that avoid what is hidden. -/
def Renderer.Repeats (table : SymbolTable) (render : Renderer) : Prop :=
  ∀ {hidden : List String} {ty : Ty} {o : RenderOptions}, table.AliasesAvoid hidden →
    ty.Avoids hidden → o.Plain → (render ty o).Repeats table hidden fun _ => True

section

variable {table : SymbolTable} {hidden : List String}

lemma Ty.avoids_mem {tys : List Ty} (h : ∀ name ∈ hidden, name ∉ Ty.freeParamsAll tys) {ty : Ty}
    (hty : ty ∈ tys) : ty.Avoids hidden :=
  fun name hname hm => h name hname (Ty.mem_freeParamsAll.mpr ⟨ty, hty, hm⟩)

lemma SymbolTable.AliasesAvoid.filter (h : table.AliasesAvoid hidden) (p : String → Bool) :
    table.AliasesAvoid (hidden.filter p) :=
  fun id symbol body hid hbody name hname =>
    h id symbol body hid hbody name (List.mem_filter.mp hname).1

/-- Only what the arguments mention is mentioned in what the parameters of an alias stand for. -/
lemma mentionsParam_of_aliasBindings {params : List String} {args : List Ty} {name : String}
    (h : (aliasBindings params args).MentionsParam name) : name ∈ Ty.freeParamsAll args := by
  obtain ⟨entry, hentry, hname⟩ := h
  rcases snd_of_mem_aliasBindings hentry with harg | hany
  · exact Ty.mem_freeParamsAll.mpr ⟨entry.2, harg, hname⟩
  · rw [hany] at hname
    cases hname

/-- Every parameter of an alias stands for something. -/
lemma lookup_aliasBindings_ne {params : List String} {name : String} (h : name ∈ params)
    (args : List Ty) : (aliasBindings params args).lookup name ≠ none := by
  obtain ⟨i, hi⟩ := List.mem_iff_getElem?.mp h
  intro hnone
  have hmem : (name, args[i]?.getD .any) ∈ aliasBindings params args := by
    simp only [aliasBindings, List.mem_reverse, List.mem_map]
    exact ⟨(name, i), List.mem_zipIdx_iff_getElem?.mpr hi, rfl⟩
  have hne := List.lookup_eq_none_iff.mp hnone _ hmem
  simp at hne

/-- What an alias stands for avoids what its arguments avoid. -/
lemma avoids_substitute (htable : table.AliasesAvoid hidden) {id : Nat} {symbol : Symbol} {body : Ty}
    (hid : table.get? id = some symbol) (hbody : symbol.aliased = some body) {args : List Ty}
    (hargs : ∀ name ∈ hidden, name ∉ Ty.freeParamsAll args) :
    (body.substitute (aliasBindings symbol.typeParams args)).Avoids hidden := by
  intro name hname hm
  rcases Ty.mem_freeParams_substitute body hm with ⟨hmem, hlookup⟩ | hbound
  · exact lookup_aliasBindings_ne (htable id symbol body hid hbody name hname hmem) args hlookup
  · exact hargs name hname (mentionsParam_of_aliasBindings hbound)

lemma Renderer.Repeats.key {render : Renderer} (h : render.Repeats table)
    (htable : table.AliasesAvoid hidden) {ty : Ty} (hty : ty.Avoids hidden) :
    (render.key ty).Repeats table hidden fun _ => True :=
  .map (.detached (h htable hty .key)) fun _ _ => trivial

lemma Renderer.Repeats.withComment {render : Renderer} (h : render.Repeats table)
    (htable : table.AliasesAvoid hidden) {ty : Ty} (hty : ty.Avoids hidden) {o : RenderOptions}
    (ho : o.Plain) :
    (do return (← render ty o).withComment : Work String).Repeats table hidden fun _ => True :=
  .map (h htable hty ho) fun _ _ => trivial

/-! ### Distinct types -/

/-- The components of a type avoid what it avoids. -/
lemma components_avoid (htable : table.AliasesAvoid hidden) {expanding : List Nat} {steps : Nat}
    {ty : Ty} {parts : List Ty} (hparts : components table expanding steps ty = some parts)
    (hty : ty.Avoids hidden) : ∀ part ∈ parts, part.Avoids hidden := by
  refine components_keep (P := (Ty.Avoids · hidden)) (fun ty id body halias _ name hname hm => ?_)
    (fun _ hmembers _ => Ty.avoids_mem hmembers) (fun _ hmembers _ => Ty.avoids_mem hmembers)
    hparts hty
  obtain ⟨-, -, symbol, hid, -, hparams, hbody⟩ := aliasBody?_eq_some.mp halias
  have hparam := htable id symbol body hid hbody name hname hm
  rw [hparams] at hparam
  cases hparam

/-- The types that are kept avoid what is hidden. -/
def DistinctTypes.Avoid (d : DistinctTypes) (hidden : List String) : Prop :=
  ∀ ty ∈ d.types, ty.Avoids hidden

lemma DistinctTypes.Avoid.insert {d : DistinctTypes} (h : d.Avoid hidden) {ty : Ty}
    (hty : ty.Avoids hidden) (key : String) : (d.insert key ty).Avoid hidden := by
  unfold DistinctTypes.insert
  split_ifs
  · exact h
  · intro other hother
    simp only [DistinctTypes.types, List.map_append, List.map_cons, List.map_nil,
      List.mem_append, List.mem_singleton] at hother
    rcases hother with hother | rfl
    · exact h other hother
    · exact hty

lemma DistinctTypes.Avoid.representative {d : DistinctTypes} (h : d.Avoid hidden) {ty : Ty}
    (hty : ty.Avoids hidden) : (d.representative?.getD ty).Avoids hidden := by
  unfold DistinctTypes.representative?
  unfold DistinctTypes.Avoid at h
  generalize d.types = tys at h ⊢
  rcases tys with _ | ⟨first, _ | ⟨second, rest⟩⟩
  · exact hty
  · exact h first List.mem_cons_self
  · intro name hname hm
    obtain ⟨other, hother, hm⟩ := Ty.mem_freeParamsAll.mp hm
    exact h other hother name hname hm

section

variable {render : Renderer} (h : render.Repeats table) (htable : table.AliasesAvoid hidden)
include h htable

lemma DistinctTypes.add_repeats (steps : Nat) {d : DistinctTypes} (hd : d.Avoid hidden) {ty : Ty}
    (hty : ty.Avoids hidden) : (d.add render steps ty).Repeats table hidden (·.Avoid hidden) := by
  refine .get_bind (fun s t hst => by rw [hst.table, hst.expanding]) fun s hs => ?_
  cases hparts : components s.table s.expanding steps ty with
  | none => exact .throw _
  | some parts =>
      rw [hs] at hparts
      have havoid := components_avoid htable hparts hty
      refine .foldlM hd fun d hd part hpart => ?_
      exact .map (h.key htable (havoid part hpart)) fun key _ => hd.insert (havoid part hpart) key

lemma DistinctTypes.ofTypes_repeats (steps : Nat) {tys : List Ty}
    (htys : ∀ ty ∈ tys, ty.Avoids hidden) :
    (ofTypes render steps tys).Repeats table hidden (·.Avoid hidden) :=
  .foldlM (fun _ hty => by cases hty) fun _ hd ty hty => add_repeats h htable steps hd (htys ty hty)

lemma DistinctTypes.representative_repeats (steps : Nat) {tys : List Ty}
    (htys : ∀ ty ∈ tys, ty.Avoids hidden) :
    (representative render steps tys).Repeats table hidden (·.Avoids hidden) :=
  .map (ofTypes_repeats h htable steps htys) fun _ hd =>
    hd.representative (by simp [Ty.Avoids, Ty.any, Ty.freeParams])

/-! ### Forms of types -/

omit h htable in
lemma mem_of_shownMember {policy : UnionPolicy} {tys : List Ty} {ty : Ty}
    (hshown : shownMember policy tys = some ty) : ty ∈ tys := by
  rcases tys with _ | ⟨first, _ | ⟨second, rest⟩⟩
  · cases hshown
  · exact Option.some.inj hshown ▸ List.mem_cons_self
  · cases policy with
    | untyped => cases hshown
    | firstConcrete => exact Option.some.inj hshown ▸ List.mem_cons_self

variable {o : RenderOptions} (ho : o.Plain)
include ho

lemma renderSignature_repeats {sig : Signature} (hresult : sig.result.Avoids hidden)
    (hparams : ∀ p ∈ sig.params, p.type.Avoids hidden) :
    (renderSignature render o sig).Repeats table hidden fun _ => True := by
  refine .bind (h htable hresult ho) fun result _ => ?_
  refine .map (.mapM (Q := fun _ => True) fun p hp => ?_) fun _ _ => trivial
  exact .map (h htable (hparams p hp) ho) fun _ _ => trivial

/-- The type parameters that a signature declares are in scope inside it, hidden or not. -/
lemma renderFunction_repeats {sig : Signature} (hsig : ∀ name ∈ hidden, name ∉ sig.freeParams) :
    (renderFunction render sig o).Repeats table hidden fun _ => True := by
  unfold renderFunction
  split_ifs
  · exact .table_bind (.pure trivial)
  · refine .map (.inScope sig.typeParams
      (renderSignature_repeats h (htable.filter _) ho.nested ?_ fun p hp => ?_)) fun _ _ => trivial
    · intro name hname hm
      obtain ⟨hname, hdeclared⟩ := List.mem_filter.mp hname
      exact hsig name hname (Signature.mem_freeParams.mpr ⟨by simpa using hdeclared, Or.inr hm⟩)
    · intro name hname hm
      obtain ⟨hname, hdeclared⟩ := List.mem_filter.mp hname
      exact hsig name hname
        (Signature.mem_freeParams.mpr ⟨by simpa using hdeclared, Or.inl ⟨p, hp, hm⟩⟩)

lemma renderAlias_repeats {id : Nat} {symbol : Symbol} (hid : table.get? id = some symbol)
    {args : List Ty} (hargs : ∀ name ∈ hidden, name ∉ Ty.freeParamsAll args) :
    (renderAlias render id symbol args o).Repeats table hidden fun _ => True := by
  have hplain : RenderOptions.Plain { o with typeArguments := none } := ⟨rfl, ho.bindings⟩
  unfold renderAlias
  cases hbody : symbol.aliased with
  | none => exact .pure trivial
  | some body =>
      refine .get_bind (fun s t hst => by rw [hst.expanding]) fun s _ => ?_
      split_ifs with hexpanding hparams
      · exact .map (.reportUnsupported _) fun _ _ => trivial
      · refine .expanding id (h htable (fun name hname hm => ?_) hplain)
        have hparam := htable id symbol body hid hbody name hname hm
        rw [List.isEmpty_iff.mp hparams] at hparam
        cases hparam
      · exact .expanding id (h htable (avoids_substitute htable hid hbody hargs) hplain)

lemma renderNominal_repeats (id : Nat) (symbol : Symbol) {args : List Ty}
    (hargs : ∀ name ∈ hidden, name ∉ Ty.freeParamsAll args) :
    (renderNominal render id symbol args o).Repeats table hidden fun _ => True := by
  refine .bind (.nameOf id) fun name _ => ?_
  cases name with
  | none => exact .pure trivial
  | some name =>
      dsimp only
      split_ifs
      · exact .pure trivial
      · exact .map (.mapM fun arg harg => h.withComment htable (Ty.avoids_mem hargs harg)
          ho.argument) fun _ _ => trivial

lemma renderSymbol_repeats (id : Nat) {args : List Ty}
    (hargs : ∀ name ∈ hidden, name ∉ Ty.freeParamsAll args) :
    (renderSymbol render id args o).Repeats table hidden fun _ => True := by
  refine .table_bind ?_
  cases hid : table.get? id with
  | none => exact .map (.reportUnresolved _) fun _ _ => trivial
  | some symbol =>
      cases hkind : symbol.kind with
      | «alias» => simpa only [hkind] using renderAlias_repeats h htable ho hid hargs
      | klass | interface | enum =>
          simpa only [hkind] using renderNominal_repeats h htable ho id symbol hargs
      | function | «variable» | typeParameter | nameSpace =>
          simp only [hkind]
          exact .map (.reportUnsupported _) fun _ _ => trivial

lemma renderShape_repeats {members : List Member}
    (hmembers : ∀ name ∈ hidden, name ∉ Member.freeParamsAll members) :
    (renderShape render members o).Repeats table hidden fun _ => True := by
  unfold renderShape
  split
  · refine renderFunction_repeats h htable ho fun name hname hm => hmembers name hname ?_
    exact List.mem_append_left _ hm
  · exact .table_bind (.pure trivial)

lemma renderUnion_repeats (steps : Nat) (ty : Ty) {members : List Ty}
    (hmembers : ∀ name ∈ hidden, name ∉ Ty.freeParamsAll members) :
    (renderUnion render steps ty members o).Repeats table hidden fun _ => True := by
  have hplain : RenderOptions.Plain { o with hideComment := true, typeArguments := none } :=
    ⟨rfl, ho.bindings⟩
  have hend : ∀ text, (if members.length > 1 then do
        return Rendered.annotated text (ty.text (← Work.table)) o
      else return Rendered.plain text : Work Rendered).Repeats table hidden fun _ => True := by
    intro text
    split_ifs
    · exact .table_bind (.pure trivial)
    · exact .pure trivial
  refine .bind (DistinctTypes.ofTypes_repeats h htable steps fun _ hty =>
    Ty.avoids_mem hmembers hty) fun merged hmerged => ?_
  refine .bind (.filterM fun member hmember => ?_) fun concrete hconcrete => ?_
  · exact .map (.detached (h htable (hmerged member hmember) hplain)) fun _ _ => trivial
  · refine .get_bind (fun s t hst => by rw [hst.policy]) fun s _ => ?_
    dsimp only
    cases hshown : shownMember (o.policy.getD s.policy) concrete with
    | none => exact .bind (P := fun _ => True) (.pure trivial) fun _ _ => hend _
    | some member =>
        have hmember : member ∈ merged.types := hconcrete (mem_of_shownMember hshown)
        exact .bind (h htable (hmerged member hmember) hplain) fun _ _ =>
          .bind (P := fun _ => True) (.pure trivial) fun _ _ => hend _

end

/-! ### All forms -/

/-- **Rendering repeats itself**, however deep it may go. -/
theorem renderWithin_repeats (depth : Nat) : (renderWithin depth).Repeats table := by
  induction depth with
  | zero => exact fun _ _ _ => .throw _
  | succ depth ih =>
      intro hidden ty o htable hty ho
      cases ty with
      | primitive kind => exact .pure trivial
      | nominal symbol args => exact renderSymbol_repeats ih htable ho symbol hty
      | «alias» symbol =>
          simp only [renderWithin, ho.typeArguments]
          exact renderSymbol_repeats ih htable ho symbol fun _ _ => List.not_mem_nil
      | function sig => exact renderFunction_repeats ih htable ho hty
      | array element =>
          refine .bind (DistinctTypes.representative_repeats ih htable depth fun _ h => ?_)
            fun element helement => ?_
          · exact List.mem_singleton.mp h ▸ hty
          · exact .map (ih htable helement ho.argument) fun _ _ => trivial
      | tuple elements =>
          refine .bind (DistinctTypes.representative_repeats ih htable depth fun _ h =>
            Ty.avoids_mem hty h) fun element helement => ?_
          refine .bind (ih htable helement ⟨rfl, ho.bindings⟩) fun _ _ => ?_
          exact .table_bind (.pure trivial)
      | shape members => exact renderShape_repeats ih htable ho hty
      | param name =>
          simp only [renderWithin, ho.bindings, Option.bind_none]
          exact .ofScope fun hname => hty name hname List.mem_cons_self
      | literal kind text => exact .pure trivial
      | union members => exact renderUnion_repeats ih htable ho depth _ hty
      | intersection members => exact renderUnion_repeats ih htable ho depth _ hty
      | raw text => exact .pure trivial

end

end Interop
