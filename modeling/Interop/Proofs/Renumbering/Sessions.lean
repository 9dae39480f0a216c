import Interop.Proofs.Items
import Interop.Proofs.Renumbering.Tables
import Mathlib.Data.Prod.Basic

/-!
# Sessions that differ in numbers

Two runs over corresponding tables go the same way.  This file says what it means for two
computations to go the same way, and gives a rule for each way in which computations are put
together, so that the two are compared part by part.  What may be reported on the way is stated along
with it.

* `SymbolTable.Expects` — the diagnostics that a run over a closed table may report.
* `Twins` — two prepared sessions that differ in numbers alone.
* `Twins.Alike` — two sessions in which the same has happened since.
* `Twins.Agree` — two computations that do the same in such sessions; `Twins.Agree.bind`,
  `Twins.Agree.mapM`, … are its rules.
-/

namespace Interop

open Work

/-! ## What may be reported -/

/-- A diagnostic about an alias that comes up in its own expansion. -/
def SymbolTable.ReportsRecursion (t : SymbolTable) (d : Diagnostic) : Prop :=
  ∃ id s span, t.get? id = some s ∧ s.kind = .alias ∧
    d = .unsupported span ("recursive type alias `" ++ s.name ++ "`")

/-- **A diagnostic to be expected**: one that was noted before, or one about a recursive alias. -/
def SymbolTable.Expects (t : SymbolTable) (notes : List Diagnostic) (d : Diagnostic) : Prop :=
  d ∈ notes ∨ t.ReportsRecursion d

/-! ## Twins -/

/-- **Two prepared sessions that differ in numbers alone.**  Their tables correspond, files are in
corresponding libraries, and declarations and libraries have the same names. -/
structure Twins where
  ρ : Renumbering
  left : Session
  right : Session
  tables : ρ.Tables left.table right.table
  settled : left.Settled fun _ => True
  settled_right : right.Settled fun _ => True
  flatName : ∀ id s, left.table.get? id = some s → s.kind.isEmitted = true →
    right.flatName s = left.flatName s
  libraryOf? : ∀ file, right.libraryOf? (ρ.file file) = (left.libraryOf? file).map ρ.library
  library_name : ∀ library,
    (right.library? (ρ.library library)).map (·.name) = (left.library? library).map (·.name)

namespace Twins

variable (r : Twins) (notes : List Diagnostic)

/-- **Two sessions in which the same has happened** since they were prepared.  All that was reported
was to be expected. -/
structure Alike (s s' : Session) : Prop where
  names : r.left.SameNames s
  names_right : r.right.SameNames s'
  policy : s'.policy = s.policy
  log : s'.log = s.log
  entries : ∀ d ∈ s.log.entries, r.left.table.Expects notes d
  current : s'.current = s.current.map r.ρ.library
  imports : s'.imports = s.imports.map (Prod.map r.ρ.library r.ρ.library)
  position : s'.position = s.position
  scopes : s'.scopes = s.scopes
  expanding : s'.expanding = s.expanding.map r.ρ.symbol
  detachment : s'.detachment = s.detachment

/-- Results that correspond, or one failure.  A diagnostic that ends the work is to be expected. -/
inductive Outcomes {α β : Type} (Q : α → β → Prop) : Except Failure α → Except Failure β → Prop
  | ok {a : α} {b : β} (h : Q a b) : Outcomes Q (.ok a) (.ok b)
  | error {failure : Failure}
      (h : ∀ d, failure = .aborted d → r.left.table.Expects notes d) :
      Outcomes Q (.error failure) (.error failure)

/-- **Two computations that go the same way**, and whose results correspond. -/
def Agree {α β : Type} (w : Work α) (w' : Work β) (Q : α → β → Prop) : Prop :=
  ∀ s s', r.Alike notes s s' →
    r.Outcomes notes Q (w.exec s).1 (w'.exec s').1 ∧ r.Alike notes (w.exec s).2 (w'.exec s').2

variable {r notes} {α β γ δ : Type}

namespace Outcomes

variable {Q : α → β → Prop}

lemma imp {P : α → β → Prop} {out : Except Failure α} {out' : Except Failure β}
    (h : r.Outcomes notes P out out') (himp : ∀ a b, P a b → Q a b) :
    r.Outcomes notes Q out out' := by
  cases h with
  | ok hab => exact .ok (himp _ _ hab)
  | error hexpects => exact .error hexpects

lemma of_ok {a : α} {out' : Except Failure β} (h : r.Outcomes notes Q (.ok a) out') :
    ∃ b, out' = .ok b ∧ Q a b := by
  cases h with
  | ok hab => exact ⟨_, rfl, hab⟩

lemma of_error {failure : Failure} {out' : Except Failure β}
    (h : r.Outcomes notes Q (.error failure) out') :
    out' = .error failure ∧ ∀ d, failure = .aborted d → r.left.table.Expects notes d := by
  cases h with
  | error hexpects => exact ⟨rfl, hexpects⟩

end Outcomes

/-! ### One after another -/

namespace Agree

lemma pure {Q : α → β → Prop} {a : α} {b : β} (h : Q a b) :
    r.Agree notes (Pure.pure a) (Pure.pure b) Q :=
  fun _ _ hs => ⟨.ok h, hs⟩

lemma throw {Q : α → β → Prop} {failure : Failure} (h : ∀ d, failure ≠ .aborted d) :
    r.Agree notes (MonadExcept.throw failure : Work α) (MonadExcept.throw failure : Work β) Q :=
  fun _ _ hs => ⟨.error fun d hd => absurd hd (h d), hs⟩

lemma exhausted {Q : α → β → Prop} : r.Agree notes (MonadExcept.throw Failure.exhausted : Work α)
    (MonadExcept.throw Failure.exhausted : Work β) Q :=
  throw fun _ => Failure.noConfusion

lemma bind {P : α → β → Prop} {Q : γ → δ → Prop} {w : Work α} {w' : Work β} {k : α → Work γ}
    {k' : β → Work δ} (hw : r.Agree notes w w' P)
    (hk : ∀ a b, P a b → r.Agree notes (k a) (k' b) Q) :
    r.Agree notes (w >>= k) (w' >>= k') Q := by
  intro s s' hs
  obtain ⟨hout, halike⟩ := hw s s' hs
  rw [exec_bind, exec_bind]
  generalize w.exec s = run at hout halike ⊢
  generalize w'.exec s' = run' at hout halike ⊢
  obtain ⟨out, t⟩ := run
  obtain ⟨out', t'⟩ := run'
  cases hout with
  | ok hab => exact hk _ _ hab t t' halike
  | error h => exact ⟨.error h, halike⟩

lemma weaken {P Q : α → β → Prop} {w : Work α} {w' : Work β} (hw : r.Agree notes w w' P)
    (h : ∀ a b, P a b → Q a b) : r.Agree notes w w' Q := fun s s' hs =>
  ⟨(hw s s' hs).1.imp h, (hw s s' hs).2⟩

/-- A computation whose result is made into another one. -/
lemma map {P : α → β → Prop} {Q : γ → δ → Prop} {w : Work α} {w' : Work β} {f : α → γ} {f' : β → δ}
    (hw : r.Agree notes w w' P) (h : ∀ a b, P a b → Q (f a) (f' b)) :
    r.Agree notes (w >>= fun a => Pure.pure (f a)) (w' >>= fun b => Pure.pure (f' b)) Q :=
  bind hw fun a b hab => pure (h a b hab)

lemma get_bind {Q : α → β → Prop} {k : Session → Work α} {k' : Session → Work β}
    (hk : ∀ s s', r.Alike notes s s' → r.Agree notes (k s) (k' s') Q) :
    r.Agree notes (get >>= k) (get >>= k') Q :=
  fun s s' hs => hk s s' hs s s' hs

lemma table_bind {Q : α → β → Prop} {k : SymbolTable → Work α} {k' : SymbolTable → Work β}
    (hk : r.Agree notes (k r.left.table) (k' r.right.table) Q) :
    r.Agree notes (Work.table >>= k) (Work.table >>= k') Q := by
  intro s s' hs
  rw [exec_table_bind, exec_table_bind, hs.names.table, hs.names_right.table]
  exact hk s s' hs

lemma pointAt (span : Span) : r.Agree notes (modify (·.pointAt span)) (modify (·.pointAt span))
    (· = ·) :=
  fun _ _ hs => ⟨.ok rfl, { hs with
    names := hs.names.trans ⟨rfl, rfl, rfl, rfl⟩
    names_right := hs.names_right.trans ⟨rfl, rfl, rfl, rfl⟩
    position := rfl }⟩

/-! ### Reports -/

lemma report {d : Diagnostic} (hd : r.left.table.Expects notes d) :
    r.Agree notes (Work.report d) (Work.report d) (· = ·) := by
  intro s s' hs
  rw [exec_report, exec_report, hs.log]
  cases hadd : s.log.add d with
  | error failure =>
      refine ⟨.error fun e he => ?_, hs⟩
      obtain rfl := Failure.aborted.inj ((Log.add_error hadd).2.symm.trans he)
      exact hd
  | ok log =>
      refine ⟨.ok rfl, { hs with
        names := hs.names.trans ⟨rfl, rfl, rfl, rfl⟩
        names_right := hs.names_right.trans ⟨rfl, rfl, rfl, rfl⟩
        log := rfl
        entries := fun e he => ?_ }⟩
      rcases Log.mem_add hadd he with he | rfl
      · exact hs.entries e he
      · exact hd

/-! ### Between a change and its undoing -/

lemma within {Q : α → β → Prop} {w : Work α} {w' : Work β}
    {enter leave enter' leave' : Session → Session}
    (henter : ∀ s s', r.Alike notes s s' → r.Alike notes (enter s) (enter' s'))
    (hleave : ∀ s s', r.Alike notes s s' → r.Alike notes (leave s) (leave' s'))
    (hw : r.Agree notes w w' Q) :
    r.Agree notes (Work.within enter leave w) (Work.within enter' leave' w') Q := by
  intro s s' hs
  rw [exec_within, exec_within]
  obtain ⟨hout, halike⟩ := hw _ _ (henter s s' hs)
  exact ⟨hout, hleave _ _ halike⟩

lemma inScope {Q : α → β → Prop} {w : Work α} {w' : Work β} (names : List String)
    (hw : r.Agree notes w w' Q) :
    r.Agree notes (Work.inScope names w) (Work.inScope names w') Q := by
  refine within (fun s s' hs => ?_) (fun s s' hs => ?_) hw
  · exact { hs with
      names := hs.names.trans ⟨rfl, rfl, rfl, rfl⟩
      names_right := hs.names_right.trans ⟨rfl, rfl, rfl, rfl⟩
      scopes := congrArg (names :: ·) hs.scopes }
  · exact { hs with
      names := hs.names.trans ⟨rfl, rfl, rfl, rfl⟩
      names_right := hs.names_right.trans ⟨rfl, rfl, rfl, rfl⟩
      scopes := congrArg List.tail hs.scopes }

lemma expanding {Q : α → β → Prop} {w : Work α} {w' : Work β} (id : Nat)
    (hw : r.Agree notes w w' Q) :
    r.Agree notes (Work.expanding id w) (Work.expanding (r.ρ.symbol id) w') Q := by
  refine within (fun s s' hs => ?_) (fun s s' hs => ?_) hw
  · exact { hs with
      names := hs.names.trans ⟨rfl, rfl, rfl, rfl⟩
      names_right := hs.names_right.trans ⟨rfl, rfl, rfl, rfl⟩
      expanding := congrArg (r.ρ.symbol id :: ·) hs.expanding }
  · exact { hs with
      names := hs.names.trans ⟨rfl, rfl, rfl, rfl⟩
      names_right := hs.names_right.trans ⟨rfl, rfl, rfl, rfl⟩
      expanding := (congrArg List.tail hs.expanding).trans List.map_tail.symm }

lemma detached {Q : α → β → Prop} {w : Work α} {w' : Work β} (hw : r.Agree notes w w' Q) :
    r.Agree notes (Work.detached w) (Work.detached w') Q := by
  refine within (fun s s' hs => ?_) (fun s s' hs => ?_) hw
  · exact { hs with
      names := hs.names.trans ⟨rfl, rfl, rfl, rfl⟩
      names_right := hs.names_right.trans ⟨rfl, rfl, rfl, rfl⟩
      detachment := congrArg (· + 1) hs.detachment }
  · exact { hs with
      names := hs.names.trans ⟨rfl, rfl, rfl, rfl⟩
      names_right := hs.names_right.trans ⟨rfl, rfl, rfl, rfl⟩
      detachment := congrArg (· - 1) hs.detachment }

/-! ### Lists -/

lemma mapM {Q : γ → δ → Prop} {f : α → Work γ} {f' : β → Work δ} {xs : List α} {ys : List β}
    (h : List.Forall₂ (fun x y => r.Agree notes (f x) (f' y) Q) xs ys) :
    r.Agree notes (xs.mapM f) (ys.mapM f') (List.Forall₂ Q) := by
  induction h with
  | nil =>
      rw [List.mapM_nil, List.mapM_nil]
      exact pure .nil
  | cons hxy _ ih =>
      rw [List.mapM_cons, List.mapM_cons]
      exact bind hxy fun c d hcd => bind ih fun cs ds hcds => pure (.cons hcd hcds)

/-- Lists of computations whose results are the same. -/
lemma mapM_eq {f : α → Work γ} {f' : β → Work γ} {xs : List α} {ys : List β}
    (h : List.Forall₂ (fun x y => r.Agree notes (f x) (f' y) (· = ·)) xs ys) :
    r.Agree notes (xs.mapM f) (ys.mapM f') (· = ·) :=
  (mapM h).weaken fun cs ds hcds => by rwa [List.forall₂_eq_eq_eq] at hcds

lemma forM {f : α → Work PUnit} : ∀ {xs : List α},
    (∀ x ∈ xs, r.Agree notes (f x) (f x) (· = ·)) → r.Agree notes (xs.forM f) (xs.forM f) (· = ·)
  | [], _ => pure rfl
  | _ :: _, h => bind (h _ List.mem_cons_self) fun _ _ _ =>
      forM fun y hy => h y (List.mem_cons_of_mem _ hy)

lemma foldlM {P : γ → δ → Prop} {f : γ → α → Work γ} {f' : δ → β → Work δ} {xs : List α}
    {ys : List β}
    (h : List.Forall₂ (fun x y => ∀ c d, P c d → r.Agree notes (f c x) (f' d y) P) xs ys) :
    ∀ {c : γ} {d : δ}, P c d → r.Agree notes (xs.foldlM f c) (ys.foldlM f' d) P := by
  induction h with
  | nil => exact fun hcd => pure hcd
  | cons hxy _ ih =>
      intro c d hcd
      rw [List.foldlM_cons, List.foldlM_cons]
      exact bind (hxy c d hcd) fun _ _ h => ih h

lemma filterM {R : α → β → Prop} {f : α → Work Bool} {f' : β → Work Bool} {xs : List α}
    {ys : List β}
    (h : List.Forall₂ (fun x y => R x y ∧ r.Agree notes (f x) (f' y) (· = ·)) xs ys) :
    r.Agree notes (xs.filterM f) (ys.filterM f') (List.Forall₂ R) := by
  rw [filterM_eq_foldlM, filterM_eq_foldlM]
  refine (foldlM (P := List.Forall₂ R) (h.imp fun x y hxy kept kept' hkept => ?_) .nil).map
    fun kept kept' hkept => List.rel_reverse hkept
  refine hxy.2.map ?_
  rintro keeps - rfl
  cases keeps with
  | false => exact hkept
  | true => exact .cons hxy.1 hkept

end Agree

/-! ### Names -/

lemma importsAfter_map (ρ : Renumbering) (current : Option Nat) (library : Nat)
    (imports : List (Nat × Nat)) :
    Session.importsAfter (current.map ρ.library) (ρ.library library)
        (imports.map (Prod.map ρ.library ρ.library)) =
      (Session.importsAfter current library imports).map (Prod.map ρ.library ρ.library) := by
  cases current with
  | none => rfl
  | some importer =>
      have hne : (ρ.library importer != ρ.library library) = (importer != library) := by
        rw [Bool.eq_iff_iff, bne_iff_ne, bne_iff_ne, ρ.library_injective.ne_iff]
      have hcontains : (imports.map (Prod.map ρ.library ρ.library)).contains
          (ρ.library importer, ρ.library library) = imports.contains (importer, library) := by
        rw [Bool.eq_iff_iff, List.contains_iff_mem, List.contains_iff_mem]
        exact List.mem_map_of_injective (f := Prod.map ρ.library ρ.library)
          (Function.Injective.prodMap ρ.library_injective ρ.library_injective) (a := (importer, library))
      simp only [Session.importsAfter, Option.map_some, hne, hcontains]
      split_ifs
      · rw [List.map_append]
        rfl
      · rfl

/-- To refer to a library is to refer to its counterpart. -/
lemma Alike.refer {s s' : Session} (hs : r.Alike notes s s') (library : Nat) :
    r.Alike notes (s.refer library) (s'.refer (r.ρ.library library)) := by
  have hdetachment := hs.detachment
  rw [refer_eq, refer_eq]
  by_cases hzero : s.detachment = 0
  · rw [if_pos hzero, if_pos (hdetachment.trans hzero)]
    exact { hs with
      names := hs.names.trans ⟨rfl, rfl, rfl, rfl⟩
      names_right := hs.names_right.trans ⟨rfl, rfl, rfl, rfl⟩
      imports := by
        show Session.importsAfter s'.current _ s'.imports = _
        rw [hs.current, hs.imports, importsAfter_map] }
  · rw [if_neg hzero, if_neg fun h => hzero (hdetachment.symm.trans h)]
    exact hs

/-- **Corresponding declarations have one name**, and asking for it refers to corresponding
libraries. -/
lemma Agree.nameOf {id : Nat} {symbol : Symbol} (hid : r.left.table.get? id = some symbol)
    (hkind : symbol.kind.isEmitted = true) :
    r.Agree notes (Work.nameOf id) (Work.nameOf (r.ρ.symbol id)) (· = ·) := by
  intro s s' hs
  have hleft : s.table.get? id = some symbol := hs.names.table ▸ hid
  have hright : s'.table.get? (r.ρ.symbol id) = some (symbol.renumber r.ρ) :=
    hs.names_right.table ▸ r.tables.get?_some hid
  have hfiles : s'.libraryOf? (symbol.renumber r.ρ).file =
      (s.libraryOf? symbol.file).map r.ρ.library := by
    rw [Session.libraryOf?, Session.libraryOf?, hs.names.assignments, hs.names_right.assignments]
    exact r.libraryOf? symbol.file
  cases hexternal : symbol.externalName with
  | some target =>
      rw [exec_nameOf_external hleft hexternal, exec_nameOf_external hright hexternal]
      exact ⟨.ok rfl, hs⟩
  | none =>
      cases hfile : s.libraryOf? symbol.file with
      | none =>
          rw [hfile] at hfiles
          rw [exec_nameOf_foreign hleft hexternal hfile,
            exec_nameOf_foreign hright hexternal hfiles]
          exact ⟨.error fun _ => Failure.noConfusion, hs⟩
      | some library =>
          rw [hfile] at hfiles
          cases hlegal : symbol.hasLegalName with
          | false =>
              rw [exec_nameOf_illegal hleft hexternal hfile hlegal,
                exec_nameOf_illegal hright hexternal hfiles hlegal]
              exact ⟨.ok rfl, hs⟩
          | true =>
              obtain ⟨⟨lib, hlib⟩, record, hrecord⟩ := (hs.names.settled r.settled).named id symbol
                library hleft hkind hexternal hlegal hfile
              obtain ⟨⟨lib', hlib'⟩, record', hrecord'⟩ :=
                (hs.names_right.settled r.settled_right).named _ (symbol.renumber r.ρ) _ hright hkind
                  hexternal hlegal hfiles
              have hname := r.flatName id symbol hid hkind
              have hrecord'' : r.right.registry.find? symbol.path = some record' :=
                hs.names_right.registry ▸ hrecord'
              simp only [Session.flatName, hexternal, hlegal, if_true, hrecord'',
                hs.names.registry ▸ hrecord, Option.map_some] at hname
              rw [exec_nameOf hleft hexternal hfile hlegal hlib hrecord,
                exec_nameOf hright hexternal hfiles hlegal hlib' hrecord']
              exact ⟨.ok hname.symm, hs.refer library⟩

end Twins

end Interop
