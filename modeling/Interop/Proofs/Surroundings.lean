import Interop.Proofs.Repetition
import Interop.Proofs.Termination

/-!
# What goes on around a computation

The aliases that are being expanded around a computation decide which ones it reports as recursive
and which ones it does not look through, and whether it is detached decides whether it imports
libraries.  Neither matters for anything else.  So a type is rendered in the same way in all
surroundings, if none of the symbols that it brings up are being expanded in some of them alone, and
its key is the same whether it is detached or not.

* `Surroundings`, `Session.amid` — what is being expanded, and how often work is detached.
* **`Work.Unaffected`** — a computation that goes the same way in two surroundings;
  `Unaffected.bind`, `Unaffected.mapM`, … build it from its parts.
* `Ty.Indifferent` — a type that brings up no symbol that is being expanded in one place alone.
* **`renderWithin_unaffected`** — such a type is rendered in the same way in both.
-/

namespace Interop

open Relation Work

/-- **What goes on around a computation**: the aliases being expanded, innermost first, and how many
detached computations it belongs to. -/
structure Surroundings where
  expanding : List Nat
  detachment : Nat

/-- A session in other surroundings. -/
def Session.amid (s : Session) (around : Surroundings) : Session :=
  { s with expanding := around.expanding, detachment := around.detachment }

namespace Surroundings

variable {here there : Surroundings}

/-- Around what belongs to the expansion of an alias. -/
def pushAlias (here : Surroundings) (id : Nat) : Surroundings :=
  { here with expanding := id :: here.expanding }

/-- Around a detached computation. -/
def detach (here : Surroundings) : Surroundings :=
  { here with detachment := here.detachment + 1 }

/-- Text is written in both, or in neither. -/
def WritesAlike (here there : Surroundings) : Prop :=
  here.detachment = 0 ↔ there.detachment = 0

lemma WritesAlike.detach (here there : Surroundings) : here.detach.WritesAlike there.detach :=
  iff_of_false (Nat.succ_ne_zero _) (Nat.succ_ne_zero _)

end Surroundings

/-! ## Computations in two surroundings -/

namespace Work

variable {α β : Type} {table : SymbolTable} {here there : Surroundings}

/-- **A computation that goes the same way in two surroundings**, in every session over a table,
with a result that has a property. -/
def Unaffected (table : SymbolTable) (here there : Surroundings) (w : Work α) (Q : α → Prop) :
    Prop :=
  ∀ s : Session, s.table = table → ∃ (out : Except Failure α) (t : Session), t.table = table ∧
    (∀ a, out = .ok a → Q a) ∧
      w.exec (s.amid here) = (out, t.amid here) ∧ w.exec (s.amid there) = (out, t.amid there)

namespace Unaffected

lemma pure {Q : α → Prop} {a : α} (ha : Q a) : Unaffected table here there (Pure.pure a) Q :=
  fun s hs => ⟨.ok a, s, hs, fun _ h => Except.ok.inj h ▸ ha, rfl, rfl⟩

lemma throw {Q : α → Prop} (failure : Failure) :
    Unaffected table here there (MonadExcept.throw failure : Work α) Q :=
  fun s hs => ⟨.error failure, s, hs, (fun _ h => by cases h), rfl, rfl⟩

/-- Composition. -/
lemma bind {P : α → Prop} {Q : β → Prop} {w : Work α} {k : α → Work β}
    (hw : w.Unaffected table here there P)
    (hk : ∀ a, P a → (k a).Unaffected table here there Q) :
    (w >>= k).Unaffected table here there Q := by
  intro s hs
  obtain ⟨out, t, ht, hout, hhere, hthere⟩ := hw s hs
  rw [exec_bind, exec_bind, hhere, hthere]
  cases out with
  | ok a => exact hk a (hout a rfl) t ht
  | error failure => exact ⟨.error failure, t, ht, (fun _ h => by cases h), rfl, rfl⟩

/-- A computation whose result is made into another one. -/
lemma map {P : α → Prop} {Q : β → Prop} {w : Work α} {f : α → β}
    (hw : w.Unaffected table here there P) (h : ∀ a, P a → Q (f a)) :
    (w >>= fun a => Pure.pure (f a)).Unaffected table here there Q :=
  bind hw fun a ha => pure (h a ha)

/-- What is read of the session leads to the same in both surroundings. -/
lemma get_bind {Q : α → Prop} {k : Session → Work α}
    (hsame : ∀ s : Session, s.table = table → k (s.amid there) = k (s.amid here))
    (hk : ∀ s : Session, s.table = table → (k (s.amid here)).Unaffected table here there Q) :
    (get >>= k).Unaffected table here there Q := by
  intro s hs
  rw [exec_get_bind, exec_get_bind, hsame s hs]
  exact hk s hs s hs

lemma table_bind {Q : α → Prop} {k : SymbolTable → Work α}
    (hk : (k table).Unaffected table here there Q) :
    (Work.table >>= k).Unaffected table here there Q := by
  intro s hs
  rw [exec_table_bind, exec_table_bind, show (s.amid here).table = table from hs,
    show (s.amid there).table = table from hs]
  exact hk s hs

/-- A computation that neither reads its surroundings nor changes them. -/
lemma unmoved {w : Work α} (htable : ∀ s : Session, (w.exec s).2.table = s.table)
    (hsame : ∀ (s : Session) around, w.exec (s.amid around) =
      ((w.exec s).1, (w.exec s).2.amid around)) :
    w.Unaffected table here there fun _ => True :=
  fun s hs => ⟨(w.exec s).1, (w.exec s).2, (htable s).trans hs, fun _ _ => trivial, hsame s here,
    hsame s there⟩

/-! ### Reports and names -/

lemma report (d : Diagnostic) : (Work.report d).Unaffected table here there fun _ => True := by
  refine unmoved (fun s => ?_) fun s around => ?_
  · rw [exec_report]
    cases s.log.add d <;> rfl
  · rw [exec_report, exec_report, show (s.amid around).log = s.log from rfl]
    cases s.log.add d <;> rfl

lemma reportUnsupported (construct : String) :
    (Work.reportUnsupported construct).Unaffected table here there fun _ => True :=
  get_bind (fun _ _ => rfl) fun _ _ => report _

lemma reportUnresolved (name : String) :
    (Work.reportUnresolved name).Unaffected table here there fun _ => True :=
  get_bind (fun _ _ => rfl) fun _ _ => report _

lemma refer (hwrites : here.WritesAlike there) (library : Nat) :
    (modify (·.refer library) : Work Unit).Unaffected table here there fun _ => True := by
  intro s hs
  let t : Session := { s with imports := Session.importsAfter s.current library s.imports }
  have hrefer : ∀ around : Surroundings, (s.amid around).refer library =
      if around.detachment = 0 then t.amid around else s.amid around :=
    fun around => refer_eq (s.amid around) library
  simp only [exec_modify, hrefer]
  by_cases hwritten : here.detachment = 0
  · simp only [if_pos hwritten, if_pos (hwrites.mp hwritten)]
    exact ⟨_, t, hs, fun _ _ => trivial, rfl, rfl⟩
  · simp only [if_neg hwritten, if_neg fun h => hwritten (hwrites.mpr h)]
    exact ⟨_, s, hs, fun _ _ => trivial, rfl, rfl⟩

lemma allocate (path : DeclPath) (library : Nat) :
    (Work.allocate path library).Unaffected table here there fun _ => True := by
  have hlibrary : ∀ (s : Session) around, (s.amid around).library? library = s.library? library :=
    fun _ _ => rfl
  refine unmoved (fun s => ?_) fun s around => ?_
  · cases hlib : s.library? library with
    | none => rw [exec_allocate_missing hlib]
    | some lib => rw [exec_allocate hlib]
  · cases hlib : s.library? library with
    | none =>
        rw [exec_allocate_missing hlib, exec_allocate_missing ((hlibrary s around).trans hlib)]
        rfl
    | some lib =>
        rw [exec_allocate hlib, exec_allocate ((hlibrary s around).trans hlib)]
        rfl

lemma nameOf (hwrites : here.WritesAlike there) (id : Nat) :
    (Work.nameOf id).Unaffected table here there fun _ => True := by
  refine get_bind (fun _ _ => rfl) fun s _ => ?_
  cases (s.amid here).table.get? id with
  | none => exact pure trivial
  | some symbol =>
      dsimp only
      cases symbol.externalName with
      | some target => exact pure trivial
      | none =>
          dsimp only
          cases (s.amid here).libraryOf? symbol.file with
          | none => exact throw _
          | some library =>
              dsimp only
              split_ifs
              · exact bind (refer hwrites library) fun _ _ => map (allocate _ library) fun _ _ =>
                  trivial
              · exact pure trivial

/-! ### Between a change and its undoing -/

/-- Inside a change that is undone, and that may lead to other surroundings. -/
lemma within {inner inner' : Surroundings} {Q : α → Prop} {w : Work α}
    {enter leave : Session → Session} (enter' leave' : Session → Session)
    (hhere : ∀ s : Session, enter (s.amid here) = (enter' s).amid inner ∧
      leave (s.amid inner) = (leave' s).amid here)
    (hthere : ∀ s : Session, enter (s.amid there) = (enter' s).amid inner' ∧
      leave (s.amid inner') = (leave' s).amid there)
    (htable : ∀ s : Session, (enter' s).table = s.table ∧ (leave' s).table = s.table)
    (hw : w.Unaffected table inner inner' Q) :
    (Work.within enter leave w).Unaffected table here there Q := by
  intro s hs
  obtain ⟨out, t, ht, hout, hrun, hrun'⟩ := hw (enter' s) ((htable s).1.trans hs)
  refine ⟨out, leave' t, (htable t).2.trans ht, hout, ?_, ?_⟩
  · rw [exec_within, (hhere s).1, hrun, (hhere t).2]
  · rw [exec_within, (hthere s).1, hrun', (hthere t).2]

lemma inScope {Q : α → Prop} {w : Work α} (names : List String)
    (hw : w.Unaffected table here there Q) :
    (Work.inScope names w).Unaffected table here there Q :=
  within (·.pushScope names) Session.popScope (fun _ => ⟨rfl, rfl⟩) (fun _ => ⟨rfl, rfl⟩)
    (fun _ => ⟨rfl, rfl⟩) hw

lemma expanding {Q : α → Prop} {w : Work α} (id : Nat)
    (hw : w.Unaffected table (here.pushAlias id) (there.pushAlias id) Q) :
    (Work.expanding id w).Unaffected table here there Q :=
  within (fun s => s) (fun s => s) (fun _ => ⟨rfl, rfl⟩) (fun _ => ⟨rfl, rfl⟩)
    (fun _ => ⟨rfl, rfl⟩) hw

lemma detached {Q : α → Prop} {w : Work α} (hw : w.Unaffected table here.detach there.detach Q) :
    (Work.detached w).Unaffected table here there Q :=
  within (fun s => s) (fun s => s) (fun _ => ⟨rfl, rfl⟩) (fun _ => ⟨rfl, rfl⟩)
    (fun _ => ⟨rfl, rfl⟩) hw

/-! ### Lists -/

lemma mapM {f : α → Work β} {Q : β → Prop} : ∀ {xs : List α},
    (∀ x ∈ xs, (f x).Unaffected table here there Q) →
      (xs.mapM f).Unaffected table here there fun ys => ∀ y ∈ ys, Q y
  | [], _ => by
      rw [List.mapM_nil]
      exact pure (by simp)
  | x :: xs, h => by
      rw [List.mapM_cons]
      refine bind (h x List.mem_cons_self) fun y hy => ?_
      exact map (mapM fun z hz => h z (List.mem_cons_of_mem _ hz)) fun ys hys =>
        List.forall_mem_cons.mpr ⟨hy, hys⟩

lemma foldlM {f : β → α → Work β} {P : β → Prop} : ∀ {xs : List α} {b : β}, P b →
    (∀ b, P b → ∀ x ∈ xs, (f b x).Unaffected table here there P) →
      (xs.foldlM f b).Unaffected table here there P
  | [], _, hb, _ => pure hb
  | x :: xs, b, hb, h => by
      rw [List.foldlM_cons]
      exact bind (h b hb x List.mem_cons_self) fun b' hb' =>
        foldlM hb' fun b hb y hy => h b hb y (List.mem_cons_of_mem _ hy)

lemma filterM {f : α → Work Bool} {xs : List α}
    (h : ∀ x ∈ xs, (f x).Unaffected table here there fun _ => True) :
    (xs.filterM f).Unaffected table here there fun ys => ys ⊆ xs := by
  rw [filterM_eq_foldlM]
  refine map (foldlM (P := (· ⊆ xs)) (List.nil_subset xs) fun kept hkept x hx =>
    map (h x hx) fun keeps _ => ?_) fun kept hkept y hy => hkept (List.mem_reverse.mp hy)
  cases keeps with
  | false => exact hkept
  | true => exact List.cons_subset.mpr ⟨hx, hkept⟩

end Unaffected

end Work

/-! ## Symbols that come up -/

/-- **A symbol that comes up when a type is rendered**: it is referred to in the type, or in what
the type is unfolded to. -/
def SymbolTable.BringsUp (table : SymbolTable) (ty : Ty) (id : Nat) : Prop :=
  ∃ inner args, ReflTransGen table.Unfolds inner ty ∧ inner.reference? = some (id, args)

lemma SymbolTable.BringsUp.unfolds {table : SymbolTable} {inner ty : Ty} {id : Nat}
    (h : table.BringsUp inner id) (hinner : ReflTransGen table.Unfolds inner ty) :
    table.BringsUp ty id :=
  have ⟨last, args, hlast, href⟩ := h
  ⟨last, args, hlast.trans hinner, href⟩

lemma SymbolTable.Expands.bringsUp {table : SymbolTable} {ty body : Ty} {id : Nat}
    (h : table.Expands ty id body) : table.BringsUp ty id :=
  have ⟨args, _, _, href, _⟩ := h
  ⟨ty, args, .refl, href⟩

/-- Definitions lead from what a type mentions to all that it brings up. -/
lemma SymbolTable.BringsUp.reached {table : SymbolTable} {ty : Ty} {id : Nat}
    (h : table.BringsUp ty id) : ∃ other ∈ ty.symbols, ReflTransGen table.Uses other id := by
  obtain ⟨inner, args, hinner, href⟩ := h
  induction hinner with
  | refl => exact ⟨id, Ty.mem_symbols_of_reference? href, .refl⟩
  | tail _ hunfolds ih =>
      obtain ⟨other, hother, hreach⟩ := ih
      cases hunfolds with
      | part hpart => exact ⟨other, hpart.symbols hother, hreach⟩
      | expand hexpands =>
          rcases hexpands.symbols hother with huses | ⟨-, args, rfl, hargs⟩
          · exact ⟨_, hexpands.mem_symbols, .head huses hreach⟩
          · exact ⟨other, List.mem_cons_of_mem _ hargs, hreach⟩

/-- **A type that brings up no symbol that is being expanded in one place alone.** -/
def Ty.Indifferent (table : SymbolTable) (first second : List Nat) (ty : Ty) : Prop :=
  ∀ id, table.BringsUp ty id → (id ∈ first ↔ id ∈ second)

namespace Ty.Indifferent

variable {table : SymbolTable} {first second : List Nat} {ty : Ty} {id : Nat}

/-- Nothing differs between a place and itself. -/
lemma refl (expanding : List Nat) (ty : Ty) : ty.Indifferent table expanding expanding :=
  fun _ _ => Iff.rfl

lemma mem_iff (h : ty.Indifferent table first second) {args : List Ty}
    (href : ty.reference? = some (id, args)) : id ∈ first ↔ id ∈ second :=
  h id ⟨ty, args, .refl, href⟩

lemma unfolds {inner : Ty} (h : ty.Indifferent table first second)
    (hinner : ReflTransGen table.Unfolds inner ty) : inner.Indifferent table first second :=
  fun id hid => h id (hid.unfolds hinner)

lemma part {part : Ty} (h : ty.Indifferent table first second) (hpart : part.Part ty) :
    part.Indifferent table first second :=
  h.unfolds (.single (.part hpart))

lemma expand {body : Ty} (h : ty.Indifferent table first second)
    (hexpands : table.Expands ty id body) :
    body.Indifferent table (id :: first) (id :: second) := by
  intro other hother
  rw [List.mem_cons, List.mem_cons]
  exact or_congr_right (h.unfolds (.single (.expand hexpands)) other hother)

/-- What is asked of a type is asked of its parts, unless it is a reference. -/
lemma ofParts (hnone : ty.reference? = none)
    (h : ∀ part : Ty, part.Part ty → part.Indifferent table first second) :
    ty.Indifferent table first second := by
  rintro id ⟨inner, args, hinner, href⟩
  rcases hinner.cases_tail with rfl | ⟨part, hwithin, hpart | hexpands⟩
  · cases hnone.symm.trans href
  · exact h part hpart id ⟨inner, args, hwithin, href⟩
  · obtain ⟨given, -, -, hself, -⟩ := hexpands
    cases hnone.symm.trans hself

/-- Types that are made into one. -/
lemma ofUnion {tys : List Ty} (h : ∀ ty ∈ tys, ty.Indifferent table first second) :
    ((Ty.ofUnion tys).getD .any).Indifferent table first second := by
  rcases tys with _ | ⟨ty, _ | ⟨other, rest⟩⟩
  · exact .ofParts rfl fun part hpart => by cases hpart
  · exact h ty List.mem_cons_self
  · refine .ofParts rfl fun part hpart => ?_
    cases hpart with
    | alternative hmember => exact h part hmember

/-! ### What types count as -/

/-- The same aliases are looked through. -/
lemma aliasBody?_eq (h : ty.Indifferent table first second) :
    aliasBody? table first ty = aliasBody? table second ty := by
  ext ⟨id, body⟩
  rw [aliasBody?_eq_some, aliasBody?_eq_some]
  refine and_congr_right fun hty => and_congr_left' (not_congr ?_)
  rcases hty with rfl | rfl
  · exact h.mem_iff rfl
  · exact h.mem_iff rfl

/-- **What it counts as** is the same in both places. -/
lemma components_eq (h : ty.Indifferent table first second) (steps : Nat) :
    components table first steps ty = components table second steps ty :=
  components_congr (P := Ty.Indifferent table first second) (fun _ h => h.aliasBody?_eq)
    (fun _ _ _ hbody h => h.unfolds (.single (.expand (expands_of_aliasBody? hbody))))
    (fun _ h _ hmember => h.part (.alternative hmember))
    (fun _ h _ hmember => h.part (.conjunct hmember)) steps h

end Ty.Indifferent

/-! ## Rendering -/

/-- A renderer that goes the same way in two surroundings, for types that are indifferent to what is
being expanded. -/
def Renderer.Unaffected (table : SymbolTable) (render : Renderer) : Prop :=
  ∀ {here there : Surroundings} {ty : Ty} {o : RenderOptions}, here.WritesAlike there →
    ty.Indifferent table here.expanding there.expanding → o.Plain →
      (render ty o).Unaffected table here there fun _ => True

section

variable {table : SymbolTable} {render : Renderer} (h : render.Unaffected table)
  {here there : Surroundings}
include h

/-- Keys are the same also where only one of them is for text that is written. -/
lemma Renderer.Unaffected.key {ty : Ty}
    (hty : ty.Indifferent table here.expanding there.expanding) :
    (render.key ty).Unaffected table here there fun _ => True :=
  .map (.detached (h (.detach here there) hty .key)) fun _ _ => trivial

lemma Renderer.Unaffected.withComment (hwrites : here.WritesAlike there) {ty : Ty}
    (hty : ty.Indifferent table here.expanding there.expanding) {o : RenderOptions}
    (ho : o.Plain) : (do return (← render ty o).withComment : Work String).Unaffected table here
      there fun _ => True :=
  .map (h hwrites hty ho) fun _ _ => trivial

/-! ### Distinct types -/

namespace DistinctTypes

lemma add_unaffected (steps : Nat) {d : DistinctTypes}
    (hd : ∀ ty ∈ d.types, ty.Indifferent table here.expanding there.expanding) {ty : Ty}
    (hty : ty.Indifferent table here.expanding there.expanding) :
    (d.add render steps ty).Unaffected table here there
      fun d => ∀ ty ∈ d.types, ty.Indifferent table here.expanding there.expanding := by
  have hparts : ∀ (s : Session) around, s.table = table → components (s.amid around).table
      (s.amid around).expanding steps ty = components table around.expanding steps ty := by
    rintro s around rfl
    rfl
  refine .get_bind (fun s hs => ?_) fun s hs => ?_
  · rw [hparts s there hs, hparts s here hs, hty.components_eq]
  · rw [hparts s here hs]
    cases hfound : components table here.expanding steps ty with
    | none => exact .throw _
    | some parts =>
        have hunfolds := unfolds_components hfound
        refine .foldlM hd fun d hd part hpart => ?_
        refine .map (h.key (hty.unfolds (hunfolds part hpart))) fun key _ other hother => ?_
        rcases mem_types_insert hother with hother | rfl
        · exact hd other hother
        · exact hty.unfolds (hunfolds other hpart)

lemma ofTypes_unaffected (steps : Nat) {tys : List Ty}
    (htys : ∀ ty ∈ tys, ty.Indifferent table here.expanding there.expanding) :
    (ofTypes render steps tys).Unaffected table here there
      fun d => ∀ ty ∈ d.types, ty.Indifferent table here.expanding there.expanding :=
  .foldlM (by simp [types]) fun _ hd ty hty => add_unaffected h steps hd (htys ty hty)

lemma representative_unaffected (steps : Nat) {tys : List Ty}
    (htys : ∀ ty ∈ tys, ty.Indifferent table here.expanding there.expanding) :
    (representative render steps tys).Unaffected table here there
      (·.Indifferent table here.expanding there.expanding) :=
  .map (ofTypes_unaffected h steps htys) fun _ hd => .ofUnion hd

end DistinctTypes

/-! ### Forms of types -/

variable (hwrites : here.WritesAlike there) {o : RenderOptions} (ho : o.Plain)
include hwrites ho

lemma renderSignature_unaffected {sig : Signature}
    (hsig : Ty.Indifferent table here.expanding there.expanding (.function sig)) :
    (renderSignature render o sig).Unaffected table here there fun _ => True := by
  refine .bind (h hwrites (hsig.part (.result sig)) ho) fun result _ => ?_
  refine .map (.mapM (Q := fun _ => True) fun p hp => ?_) fun _ _ => trivial
  exact .map (h hwrites (hsig.part (.param sig hp)) ho) fun _ _ => trivial

lemma renderFunction_unaffected {sig : Signature}
    (hsig : Ty.Indifferent table here.expanding there.expanding (.function sig)) :
    (renderFunction render sig o).Unaffected table here there fun _ => True := by
  unfold renderFunction
  split_ifs
  · exact .table_bind (.pure trivial)
  · exact .map (.inScope _ (renderSignature_unaffected h hwrites ho.nested hsig)) fun _ _ => trivial

/-- An alias is being expanded in both places or in neither, and so is what it brings up. -/
lemma renderAlias_unaffected {id : Nat} {symbol : Symbol} (hid : table.get? id = some symbol)
    (hkind : symbol.kind = .alias) {ty : Ty} {args : List Ty}
    (href : ty.reference? = some (id, args))
    (hty : ty.Indifferent table here.expanding there.expanding) :
    (renderAlias render id symbol args o).Unaffected table here there fun _ => True := by
  unfold renderAlias
  cases hbody : symbol.aliased with
  | none => exact .pure trivial
  | some body =>
      have hexpands : table.Expands ty id _ :=
        ⟨args, symbol, body, href, hid, hkind, hbody, rfl⟩
      have hcontains : ∀ s : Session, (s.amid there).expanding.contains id =
          (s.amid here).expanding.contains id := fun s => by
        rw [Bool.eq_iff_iff, List.contains_iff_mem, List.contains_iff_mem]
        exact (hty.mem_iff href).symm
      refine .get_bind (fun s _ => by rw [hcontains]) fun s _ => ?_
      split
      · exact .map (.reportUnsupported _) fun _ _ => trivial
      · exact .expanding id (h hwrites (hty.expand hexpands) ⟨rfl, ho.bindings⟩)

lemma renderNominal_unaffected (id : Nat) (symbol : Symbol) {args : List Ty}
    (hargs : ∀ arg ∈ args, arg.Indifferent table here.expanding there.expanding) :
    (renderNominal render id symbol args o).Unaffected table here there fun _ => True := by
  refine .bind (.nameOf hwrites id) fun name _ => ?_
  cases name with
  | none => exact .pure trivial
  | some name =>
      dsimp only
      split_ifs
      · exact .pure trivial
      · exact .map (.mapM fun arg harg => h.withComment hwrites (hargs arg harg) ho.argument)
          fun _ _ => trivial

lemma renderSymbol_unaffected {ty : Ty} {id : Nat} {args : List Ty}
    (href : ty.reference? = some (id, args))
    (hty : ty.Indifferent table here.expanding there.expanding) :
    (renderSymbol render id args o).Unaffected table here there fun _ => True := by
  refine .table_bind ?_
  cases hid : table.get? id with
  | none => exact .map (.reportUnresolved _) fun _ _ => trivial
  | some symbol =>
      cases hkind : symbol.kind with
      | «alias» => simpa only [hkind] using renderAlias_unaffected h hwrites ho hid hkind href hty
      | klass | interface | enum =>
          simpa only [hkind] using renderNominal_unaffected h hwrites ho id symbol
            fun arg harg => hty.part (Ty.part_of_reference? href harg)
      | function | «variable» | typeParameter | nameSpace =>
          simp only [hkind]
          exact .map (.reportUnsupported _) fun _ _ => trivial

lemma renderShape_unaffected {members : List Member}
    (hmembers : Ty.Indifferent table here.expanding there.expanding (.shape members)) :
    (renderShape render members o).Unaffected table here there fun _ => True := by
  unfold renderShape
  split
  · exact renderFunction_unaffected h hwrites ho (hmembers.part .call)
  · exact .table_bind (.pure trivial)

lemma renderUnion_unaffected (steps : Nat) (ty : Ty) {members : List Ty}
    (hmembers : ∀ ty ∈ members, ty.Indifferent table here.expanding there.expanding) :
    (renderUnion render steps ty members o).Unaffected table here there fun _ => True := by
  have hplain : RenderOptions.Plain { o with hideComment := true, typeArguments := none } :=
    ⟨rfl, ho.bindings⟩
  have hend : ∀ text, (if members.length > 1 then do
        return Rendered.annotated text (ty.text (← Work.table)) o
      else return Rendered.plain text : Work Rendered).Unaffected table here there
        fun _ => True := by
    intro text
    split_ifs
    · exact .table_bind (.pure trivial)
    · exact .pure trivial
  refine .bind (DistinctTypes.ofTypes_unaffected h steps hmembers) fun merged hmerged => ?_
  refine .bind (.filterM fun member hmember => ?_) fun concrete hconcrete => ?_
  · exact .map (.detached (h (.detach here there) (hmerged member hmember) hplain))
      fun _ _ => trivial
  · refine .get_bind (fun _ _ => rfl) fun s _ => ?_
    dsimp only
    cases hshown : shownMember (o.policy.getD (s.amid here).policy) concrete with
    | none => exact .bind (P := fun _ => True) (.pure trivial) fun _ _ => hend _
    | some member =>
        have hmember : member ∈ merged.types := hconcrete (mem_of_shownMember hshown)
        exact .bind (h hwrites (hmerged member hmember) hplain) fun _ _ =>
          .bind (P := fun _ => True) (.pure trivial) fun _ _ => hend _

end

/-! ### All forms -/

/-- **Rendering goes the same way in two surroundings** if the type is indifferent to what is being
expanded, however deep it may go. -/
theorem renderWithin_unaffected (table : SymbolTable) (depth : Nat) :
    (renderWithin depth).Unaffected table := by
  induction depth with
  | zero => exact fun _ _ _ => .throw _
  | succ depth ih =>
      intro here there ty o hwrites hty ho
      cases ty with
      | primitive kind => exact .pure trivial
      | nominal id args => exact renderSymbol_unaffected ih hwrites ho rfl hty
      | «alias» id =>
          simp only [renderWithin, ho.typeArguments]
          exact renderSymbol_unaffected ih hwrites ho rfl hty
      | function sig => exact renderFunction_unaffected ih hwrites ho hty
      | array element =>
          refine .bind (DistinctTypes.representative_unaffected ih depth
            (List.forall_mem_singleton.mpr (hty.part .element))) fun element helement => ?_
          exact .map (ih hwrites helement ho.argument) fun _ _ => trivial
      | tuple elements =>
          refine .bind (DistinctTypes.representative_unaffected ih depth
            fun element hmem => hty.part (.component hmem)) fun element helement => ?_
          refine .bind (ih hwrites helement ⟨rfl, ho.bindings⟩) fun _ _ => ?_
          exact .table_bind (.pure trivial)
      | shape members => exact renderShape_unaffected ih hwrites ho hty
      | param name =>
          simp only [renderWithin, ho.bindings, Option.bind_none]
          refine .get_bind (fun _ _ => rfl) fun s _ => ?_
          split_ifs <;> exact .pure trivial
      | literal kind text => exact .pure trivial
      | union members =>
          exact renderUnion_unaffected ih hwrites ho depth _
            fun member hmember => hty.part (.alternative hmember)
      | intersection members =>
          exact renderUnion_unaffected ih hwrites ho depth _
            fun member hmember => hty.part (.conjunct hmember)
      | raw text => exact .pure trivial

end Interop
