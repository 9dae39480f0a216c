import Interop.Proofs.Renumbering.Sessions

/-!
# Computations that match

Two computations match if they go the same way in sessions that differ in what is being expanded
alone.  The first one may use up its steps before the second does; then nothing is said of the second
one.  No recursive alias is reported by the first, and if it does not use up its steps, not by the
second either.

* `Session.during` — a session in which other aliases are being expanded.
* **`Work.Matches`** — a computation that goes the same way as another one.
* `Work.ReportsNoRecursion` — no recursive alias is reported.
* `Matches.bind`, `Matches.mapM`, `Matches.foldlM`, `Matches.filterM` — matching step by step.
* `Matches.expanding`, `Matches.unfolding` — both computations belong to an expansion, or one does.
-/

namespace Interop

open Work

/-- That something does not name a type is not said of a recursive alias. -/
lemma not_reportsRecursion {table : SymbolTable} {span : Span} (name : String) :
    ¬ table.ReportsRecursion (.unsupported span ("`" ++ name ++ "` does not name a type")) := by
  rintro ⟨id, symbol, span', -, -, h⟩
  have hheads := congrArg (fun text => text.toList.head?) (Diagnostic.unsupported.inj h).2
  simp at hheads

/-- The session in which other aliases are being expanded. -/
def Session.during (s : Session) (expanding : List Nat) : Session :=
  { s with expanding }

namespace Work

variable {α β γ δ : Type} {table : SymbolTable} {first second third : List Nat}

/-- Results that correspond, one failure, or nothing if steps were used up.  A diagnostic that ends
the work is not about a recursive alias. -/
inductive Outcome (table : SymbolTable) (Q : α → β → Prop) :
    Except Failure α → Except Failure β → Prop
  | ok {a : α} {b : β} (h : Q a b) : Outcome table Q (.ok a) (.ok b)
  | error {failure : Failure} (h : ∀ d, failure = .aborted d → ¬ table.ReportsRecursion d) :
      Outcome table Q (.error failure) (.error failure)

lemma Outcome.imp {P Q : α → β → Prop} {out : Except Failure α} {out' : Except Failure β}
    (h : Outcome table P out out') (himp : ∀ a b, P a b → Q a b) : Outcome table Q out out' := by
  cases h with
  | ok hab => exact .ok (himp _ _ hab)
  | error hfailure => exact .error hfailure

/-- **A computation that goes the same way as another one** while other aliases are being
expanded. -/
def Matches (table : SymbolTable) (first second : List Nat) (w : Work α) (w' : Work β)
    (Q : α → β → Prop) : Prop :=
  ∀ s : Session, s.table = table → s.expanding = first → ∀ out t, w.exec s = (out, t) →
    (t.table = table ∧ t.expanding = first) ∧
    (∀ d ∈ t.log.entries, table.ReportsRecursion d → d ∈ s.log.entries) ∧
    (out = .error .exhausted ∨ Outcome table Q out (w'.exec (s.during second)).1 ∧
      (w'.exec (s.during second)).2 = t.during second)

/-- **No recursive alias is reported**, and the work does not end with such a report. -/
structure ReportsNoRecursion (w : Work α) (s : Session) : Prop where
  entries : ∀ d ∈ (w.exec s).2.log.entries, s.table.ReportsRecursion d → d ∈ s.log.entries
  aborted : ∀ d, (w.exec s).1 = .error (.aborted d) → ¬ s.table.ReportsRecursion d

namespace Matches

/-! ### One after another -/

lemma pure {Q : α → β → Prop} {a : α} {b : β} (h : Q a b) :
    Matches table first second (Pure.pure a) (Pure.pure b) Q := by
  intro s htable hexpanding out t hrun
  obtain ⟨rfl, rfl⟩ := Prod.mk.inj hrun
  exact ⟨⟨htable, hexpanding⟩, fun _ hd _ => hd, Or.inr ⟨.ok h, rfl⟩⟩

/-- Whoever has used up the steps matches anything. -/
lemma exhausted {Q : α → β → Prop} (w' : Work β) :
    Matches table first second (throw Failure.exhausted) w' Q := by
  intro s htable hexpanding out t hrun
  obtain ⟨rfl, rfl⟩ := Prod.mk.inj hrun
  exact ⟨⟨htable, hexpanding⟩, fun _ hd _ => hd, Or.inl rfl⟩

lemma throw {Q : α → β → Prop} {failure : Failure} (h : ∀ d, failure ≠ .aborted d) :
    Matches table first second (MonadExcept.throw failure : Work α)
      (MonadExcept.throw failure : Work β) Q := by
  intro s htable hexpanding out t hrun
  obtain ⟨rfl, rfl⟩ := Prod.mk.inj hrun
  exact ⟨⟨htable, hexpanding⟩, fun _ hd _ => hd,
    Or.inr ⟨.error fun d hd => absurd hd (h d), rfl⟩⟩

lemma bind {P : α → β → Prop} {Q : γ → δ → Prop} {w : Work α} {w' : Work β} {k : α → Work γ}
    {k' : β → Work δ} (hw : Matches table first second w w' P)
    (hk : ∀ a b, P a b → Matches table first second (k a) (k' b) Q) :
    Matches table first second (w >>= k) (w' >>= k') Q := by
  intro s htable hexpanding out u hrun
  rw [exec_bind] at hrun ⊢
  rcases hmid : w.exec s with ⟨outcome, t⟩
  obtain ⟨hsession, hquiet, hrest⟩ := hw s htable hexpanding outcome t hmid
  rw [hmid] at hrun
  rcases hrest with rfl | ⟨houtcome, hright⟩
  · obtain ⟨rfl, rfl⟩ := Prod.mk.inj hrun
    exact ⟨hsession, hquiet, Or.inl rfl⟩
  · generalize w'.exec (s.during second) = run' at houtcome hright ⊢
    obtain ⟨outcome', t'⟩ := run'
    obtain rfl : t' = t.during second := hright
    cases houtcome with
    | ok hab =>
        obtain ⟨hsession', hquiet', hrest'⟩ := hk _ _ hab t hsession.1 hsession.2 out u hrun
        exact ⟨hsession', fun d hd hrecursion => hquiet d (hquiet' d hd hrecursion) hrecursion,
          hrest'⟩
    | error h =>
        obtain ⟨rfl, rfl⟩ := Prod.mk.inj hrun
        exact ⟨hsession, hquiet, Or.inr ⟨.error h, rfl⟩⟩

lemma weaken {P Q : α → β → Prop} {w : Work α} {w' : Work β}
    (hw : Matches table first second w w' P) (h : ∀ a b, P a b → Q a b) :
    Matches table first second w w' Q := by
  intro s htable hexpanding out t hrun
  obtain ⟨hsession, hquiet, hrest⟩ := hw s htable hexpanding out t hrun
  exact ⟨hsession, hquiet, hrest.imp_right fun hrest => ⟨hrest.1.imp h, hrest.2⟩⟩

/-- Computations that do the same as others where it matters. -/
lemma congr {Q : α → β → Prop} {w v : Work α} {w' v' : Work β}
    (hw : ∀ s : Session, s.table = table → s.expanding = first → w.exec s = v.exec s)
    (hw' : ∀ s : Session, s.table = table → s.expanding = second → w'.exec s = v'.exec s)
    (h : Matches table first second v v' Q) : Matches table first second w w' Q := by
  intro s htable hexpanding out t hrun
  rw [hw' (s.during second) htable rfl]
  exact h s htable hexpanding out t (hw s htable hexpanding ▸ hrun)

/-- A computation whose result is made into another one. -/
lemma map {P : α → β → Prop} {Q : γ → δ → Prop} {w : Work α} {w' : Work β} {f : α → γ} {f' : β → δ}
    (hw : Matches table first second w w' P) (h : ∀ a b, P a b → Q (f a) (f' b)) :
    Matches table first second (w >>= fun a => Pure.pure (f a))
      (w' >>= fun b => Pure.pure (f' b)) Q :=
  bind hw fun a b hab => pure (h a b hab)

/-- What matches one of two computations that match, matches the other. -/
lemma trans {Q : α → β → Prop} {w : Work α} {w' w'' : Work β}
    (hw : Matches table first second w w' Q) (hw' : Matches table second third w' w'' (· = ·)) :
    Matches table first third w w'' Q := by
  intro s htable hexpanding out t hrun
  obtain ⟨hsession, hquiet, hrest⟩ := hw s htable hexpanding out t hrun
  refine ⟨hsession, hquiet, hrest.elim Or.inl fun ⟨houtcome, hright⟩ => ?_⟩
  rcases hrun' : w'.exec (s.during second) with ⟨out', t'⟩
  rw [hrun'] at houtcome hright
  obtain ⟨-, -, hrest'⟩ := hw' (s.during second) htable rfl out' t' hrun'
  obtain rfl : t' = t.during second := hright
  rcases hrest' with rfl | ⟨houtcome', hright'⟩
  · cases houtcome with
    | error => exact Or.inl rfl
  · refine Or.inr ⟨?_, hright'⟩
    show Outcome table Q out (w''.exec (s.during third)).1
    have hsame : (w''.exec (s.during third)).1 = out' := by
      change Outcome table (· = ·) out' (w''.exec (s.during third)).1 at houtcome'
      generalize (w''.exec (s.during third)).1 = out'' at houtcome' ⊢
      cases houtcome' with
      | ok hab => rw [hab]
      | error => rfl
    rw [hsame]
    exact houtcome

lemma get_bind {Q : α → β → Prop} {k : Session → Work α} {k' : Session → Work β}
    (hk : ∀ s : Session, s.table = table → s.expanding = first →
      Matches table first second (k s) (k' (s.during second)) Q) :
    Matches table first second (get >>= k) (get >>= k') Q :=
  fun s htable hexpanding => hk s htable hexpanding s htable hexpanding

lemma table_bind {Q : α → β → Prop} {k : SymbolTable → Work α} {k' : SymbolTable → Work β}
    (hk : Matches table first second (k table) (k' table) Q) :
    Matches table first second (Work.table >>= k) (Work.table >>= k') Q := by
  intro s htable hexpanding out t hrun
  rw [exec_table_bind, htable] at hrun
  rw [exec_table_bind, show (s.during second).table = table from htable]
  exact hk s htable hexpanding out t hrun

/-- A computation that neither reads nor changes what is being expanded, and that reports nothing. -/
lemma unmoved {w : Work α} (hw : ∀ s : Session, w.exec (s.during second) =
      ((w.exec s).1, (w.exec s).2.during second))
    (hsession : ∀ s : Session, (w.exec s).2.table = s.table ∧
      (w.exec s).2.expanding = s.expanding ∧ (w.exec s).2.log = s.log)
    (hfailure : ∀ s d, (w.exec s).1 ≠ .error (.aborted d)) :
    Matches table first second w w (· = ·) := by
  intro s htable hexpanding out t hrun
  obtain ⟨htable', hexpanding', hlog⟩ := hsession s
  have hright := hw s
  have hout := hfailure s
  rw [hrun] at htable' hexpanding' hlog hright hout
  refine ⟨⟨htable'.trans htable, hexpanding'.trans hexpanding⟩, fun d hd _ => hlog ▸ hd, Or.inr ?_⟩
  rw [hright]
  refine ⟨?_, rfl⟩
  cases out with
  | ok a => exact .ok rfl
  | error failure => exact .error fun d hd => absurd (congrArg Except.error hd) (hout d)

/-! ### Reports -/

lemma report {d : Diagnostic} (hd : ¬ table.ReportsRecursion d) :
    Matches table first second (Work.report d) (Work.report d) (· = ·) := by
  intro s htable hexpanding out t hrun
  rw [exec_report] at hrun
  rw [exec_report, show (s.during second).log = s.log from rfl]
  cases hadd : s.log.add d with
  | error failure =>
      rw [hadd] at hrun
      obtain ⟨rfl, rfl⟩ := Prod.mk.inj hrun
      refine ⟨⟨htable, hexpanding⟩, fun _ hd _ => hd, Or.inr ⟨.error fun e he => ?_, rfl⟩⟩
      obtain rfl := Failure.aborted.inj ((Log.add_error hadd).2.symm.trans he)
      exact hd
  | ok log =>
      rw [hadd] at hrun
      obtain ⟨rfl, rfl⟩ := Prod.mk.inj hrun
      refine ⟨⟨htable, hexpanding⟩, fun e he hrecursion => ?_, Or.inr ⟨.ok rfl, rfl⟩⟩
      rcases Log.mem_add hadd he with he | rfl
      · exact he
      · exact absurd hrecursion hd

lemma reportUnsupported {construct : String}
    (h : ∀ span, ¬ table.ReportsRecursion (.unsupported span construct)) :
    Matches table first second (Work.reportUnsupported construct) (Work.reportUnsupported construct)
      (· = ·) :=
  get_bind fun s _ _ => report (h s.position)

lemma reportUnresolved (name : String) :
    Matches table first second (Work.reportUnresolved name) (Work.reportUnresolved name) (· = ·) :=
  get_bind fun _ _ _ => report fun ⟨_, _, _, _, _, h⟩ => by cases h

/-! ### Between a change and its undoing -/

/-- Inside a change that is undone, and that may change what is being expanded. -/
lemma within {inner inner' : List Nat} {Q : α → β → Prop} {w : Work α} {w' : Work β}
    {enter leave enter' leave' : Session → Session}
    (henter : ∀ s : Session, s.expanding = first → (enter s).table = s.table ∧
      (enter s).expanding = inner ∧ (enter s).log = s.log ∧
      enter' (s.during second) = (enter s).during inner')
    (hleave : ∀ s : Session, s.expanding = inner → (leave s).table = s.table ∧
      (leave s).expanding = first ∧ (leave s).log = s.log ∧
      leave' (s.during inner') = (leave s).during second)
    (hw : Matches table inner inner' w w' Q) :
    Matches table first second (Work.within enter leave w) (Work.within enter' leave' w') Q := by
  intro s htable hexpanding out u hrun
  obtain ⟨htable', hexpanding', hlog, henter⟩ := henter s hexpanding
  rw [exec_within] at hrun ⊢
  rcases hmid : w.exec (enter s) with ⟨outcome, t⟩
  rw [hmid] at hrun
  obtain ⟨rfl, rfl⟩ := Prod.mk.inj hrun
  obtain ⟨⟨ht, hinner⟩, hquiet, hrest⟩ := hw (enter s) (htable'.trans htable) hexpanding' _ t hmid
  obtain ⟨hleft, hfirst, hlog', hleave⟩ := hleave t hinner
  rw [hlog] at hquiet
  refine ⟨⟨hleft.trans ht, hfirst⟩, hlog' ▸ hquiet, hrest.imp_right fun ⟨houtcome, hright⟩ => ?_⟩
  rw [henter]
  exact ⟨houtcome, by rw [hright, hleave]⟩

lemma inScope {Q : α → β → Prop} {w : Work α} {w' : Work β} (names : List String)
    (hw : Matches table first second w w' Q) :
    Matches table first second (Work.inScope names w) (Work.inScope names w') Q :=
  within (fun _ hs => ⟨rfl, hs, rfl, rfl⟩) (fun _ hs => ⟨rfl, hs, rfl, rfl⟩) hw

lemma detached {Q : α → β → Prop} {w : Work α} {w' : Work β}
    (hw : Matches table first second w w' Q) :
    Matches table first second (Work.detached w) (Work.detached w') Q :=
  within (fun _ hs => ⟨rfl, hs, rfl, rfl⟩) (fun _ hs => ⟨rfl, hs, rfl, rfl⟩) hw

lemma expanding {Q : α → β → Prop} {w : Work α} {w' : Work β} (id : Nat)
    (hw : Matches table (id :: first) (id :: second) w w' Q) :
    Matches table first second (Work.expanding id w) (Work.expanding id w') Q :=
  within (fun _ hs => ⟨rfl, congrArg (id :: ·) hs, rfl, rfl⟩)
    (fun _ hs => ⟨rfl, congrArg List.tail hs, rfl, rfl⟩) hw

/-- Only the first computation belongs to an expansion. -/
lemma unfolding {Q : α → β → Prop} {w : Work α} {w' : Work β} (id : Nat)
    (hw : Matches table (id :: first) second w w' Q) :
    Matches table first second (Work.expanding id w) w' Q := by
  show Matches table first second (Work.within (·.pushAlias id) Session.popAlias w)
    (Work.within (fun s => s) (fun s => s) w') Q
  exact within (fun _ hs => ⟨rfl, congrArg (id :: ·) hs, rfl, rfl⟩)
    (fun _ hs => ⟨rfl, congrArg List.tail hs, rfl, rfl⟩) hw

/-! ### Names -/

lemma refer (library : Nat) : Matches table first second (modify (·.refer library))
    (modify (·.refer library)) (· = ·) := by
  have hrefer : ∀ s : Session, (s.during second).refer library = (s.refer library).during second ∧
      (s.refer library).table = s.table ∧ (s.refer library).expanding = s.expanding ∧
      (s.refer library).log = s.log := by
    intro s
    rw [refer_eq, refer_eq, show (s.during second).detachment = s.detachment from rfl]
    split_ifs <;> exact ⟨rfl, rfl, rfl, rfl⟩
  refine unmoved (fun s => ?_) (fun s => (hrefer s).2) fun s d h => by cases h
  rw [exec_modify, exec_modify, (hrefer s).1]

lemma allocate (path : DeclPath) (library : Nat) : Matches table first second
    (Work.allocate path library) (Work.allocate path library) (· = ·) := by
  have hlibrary : ∀ s : Session, (s.during second).library? library = s.library? library :=
    fun _ => rfl
  refine unmoved (fun s => ?_) (fun s => ?_) fun s d => ?_
  · cases hlib : s.library? library with
    | none =>
        rw [exec_allocate_missing hlib, exec_allocate_missing ((hlibrary s).trans hlib)]
        rfl
    | some lib =>
        rw [exec_allocate hlib, exec_allocate ((hlibrary s).trans hlib)]
        rfl
  · cases hlib : s.library? library with
    | none => exact exec_allocate_missing hlib path ▸ ⟨rfl, rfl, rfl⟩
    | some lib => exact exec_allocate hlib path ▸ ⟨rfl, rfl, rfl⟩
  · cases hlib : s.library? library with
    | none =>
        rw [exec_allocate_missing hlib]
        exact fun h => by cases h
    | some lib =>
        rw [exec_allocate hlib]
        exact fun h => by cases h

lemma nameOf (id : Nat) :
    Matches table first second (Work.nameOf id) (Work.nameOf id) (· = ·) := by
  refine get_bind fun s _ _ => ?_
  rw [show (s.during second).table = s.table from rfl]
  cases s.table.get? id with
  | none => exact pure rfl
  | some symbol =>
      dsimp only
      cases symbol.externalName with
      | some target => exact pure rfl
      | none =>
          dsimp only
          rw [show (s.during second).libraryOf? symbol.file = s.libraryOf? symbol.file from rfl]
          cases s.libraryOf? symbol.file with
          | none => exact throw fun _ => Failure.noConfusion
          | some library =>
              dsimp only
              split_ifs
              · refine bind (refer library) fun _ _ _ => (allocate _ library).map ?_
                rintro name - rfl
                rfl
              · exact pure rfl

/-! ### Lists -/

lemma mapM {Q : γ → δ → Prop} {f : α → Work γ} {f' : β → Work δ} {xs : List α} {ys : List β}
    (h : List.Forall₂ (fun x y => Matches table first second (f x) (f' y) Q) xs ys) :
    Matches table first second (xs.mapM f) (ys.mapM f') (List.Forall₂ Q) := by
  induction h with
  | nil =>
      rw [List.mapM_nil, List.mapM_nil]
      exact pure .nil
  | cons hxy _ ih =>
      rw [List.mapM_cons, List.mapM_cons]
      exact bind hxy fun c d hcd => bind ih fun cs ds hcds => pure (.cons hcd hcds)

/-- Lists of computations whose results are the same. -/
lemma mapM_eq {f : α → Work γ} {f' : β → Work γ} {xs : List α} {ys : List β}
    (h : List.Forall₂ (fun x y => Matches table first second (f x) (f' y) (· = ·)) xs ys) :
    Matches table first second (xs.mapM f) (ys.mapM f') (· = ·) :=
  (mapM h).weaken fun cs ds hcds => by rwa [List.forall₂_eq_eq_eq] at hcds

lemma foldlM {P : γ → δ → Prop} {f : γ → α → Work γ} {f' : δ → β → Work δ} {xs : List α}
    {ys : List β}
    (h : List.Forall₂ (fun x y => ∀ c d, P c d → Matches table first second (f c x) (f' d y) P)
      xs ys) :
    ∀ {c : γ} {d : δ}, P c d →
      Matches table first second (xs.foldlM f c) (ys.foldlM f' d) P := by
  induction h with
  | nil => exact fun hcd => pure hcd
  | cons hxy _ ih =>
      intro c d hcd
      rw [List.foldlM_cons, List.foldlM_cons]
      exact bind (hxy c d hcd) fun _ _ h => ih h

lemma filterM {R : α → β → Prop} {f : α → Work Bool} {f' : β → Work Bool} {xs : List α}
    {ys : List β}
    (h : List.Forall₂ (fun x y => R x y ∧ Matches table first second (f x) (f' y) (· = ·)) xs ys) :
    Matches table first second (xs.filterM f) (ys.filterM f') (List.Forall₂ R) := by
  rw [filterM_eq_foldlM, filterM_eq_foldlM]
  refine (foldlM (P := List.Forall₂ R) (h.imp fun x y hxy kept kept' hkept => ?_) .nil).map
    fun kept kept' hkept => List.rel_reverse hkept
  refine hxy.2.map ?_
  rintro keeps - rfl
  cases keeps with
  | false => exact hkept
  | true => exact .cons hxy.1 hkept

/-! ### What has happened -/

/-- Where the same is being expanded, the outcomes and the sessions after are the same. -/
lemma same {s : Session} (hexpanding : s.expanding = first) {w w' : Work α}
    (hw : Matches s.table first first w w' (· = ·)) :
    (w.exec s).1 = .error .exhausted ∨ w'.exec s = w.exec s := by
  have hduring : ∀ {t : Session}, t.expanding = first → t.during first = t := fun ht => ht ▸ rfl
  rcases hrun : w.exec s with ⟨out, t⟩
  rcases hrun' : w'.exec s with ⟨out', t'⟩
  obtain ⟨⟨-, hafter⟩, -, hrest⟩ := hw s rfl hexpanding out t hrun
  rw [hduring hexpanding, hduring hafter, hrun'] at hrest
  refine hrest.imp_right fun ⟨hout, hsession⟩ => Prod.ext ?_ hsession
  show out' = out
  cases hout with
  | ok h => exact congrArg _ h.symm
  | error => rfl

end Matches

lemma ReportsNoRecursion.ofMatches {s : Session} (hexpanding : s.expanding = first)
    {Q : α → β → Prop} {w : Work α} {w' : Work β} (hw : Matches s.table first second w w' Q) :
    w.ReportsNoRecursion s := by
  rcases hrun : w.exec s with ⟨out, t⟩
  obtain ⟨-, hquiet, hrest⟩ := hw s rfl hexpanding out t hrun
  refine ⟨hrun ▸ hquiet, fun d hd => ?_⟩
  rw [hrun] at hd
  rcases hrest with rfl | ⟨hout, -⟩
  · cases hd
  · obtain rfl : out = .error (.aborted d) := hd
    generalize (w'.exec (s.during second)).1 = out' at hout
    cases hout with
    | error h => exact h d rfl

end Work

end Interop
