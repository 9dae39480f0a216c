import Interop.Proofs.Phrases.Declarations
import Interop.Proofs.Phrases.Edges

/-!
# What is cited in a prepared session

In a session in which all names are given, what a computation cites can be told from the phrases it
makes and the names that the session began with.  Rendering types is such a computation; renderings
that only decide something cite nothing.

* `Session.Cited` — a session in which the imports are those that some citations ask for.
* `Work.Cites`, `Work.Silent` — what a computation adds to the citations; the rules `Work.Cites.bind`,
  `Work.Cites.nameOf`, … follow the ways in which computations are put together.
* **`phraseWithin_cites`** — rendering a type cites the names in its phrase, and nothing else.
-/

namespace Interop

open Work

/-! ## Sessions -/

namespace Session

/-- **A session in which the imports are those that the citations ask for**, and those of a session
that it began as. -/
structure Cited (base : Session) (cited : List Citation) (s : Session) : Prop where
  names : base.SameNames s
  current : s.current = base.current
  detachment : s.detachment = base.detachment
  imports : ∀ edge, edge ∈ s.imports ↔ edge ∈ base.imports ∨ base.Needs cited edge
  /-- No import is noted twice. -/
  nodup : base.imports.Nodup → s.imports.Nodup

variable {base s : Session} {cited : List Citation}

lemma Cited.refl (base : Session) : base.Cited [] base :=
  ⟨.refl base, rfl, rfl, fun edge => by simp [Needs], id⟩

/-- What happens to the rest of a session does not matter. -/
lemma Cited.kept (h : base.Cited cited s) {t : Session} (names : s.SameNames t)
    (current : t.current = s.current) (detachment : t.detachment = s.detachment)
    (imports : t.imports = s.imports) : base.Cited cited t where
  names := h.names.trans names
  current := current.trans h.current
  detachment := detachment.trans h.detachment
  imports := imports ▸ h.imports
  nodup := imports ▸ h.nodup

/-- Only what is cited counts, not in which order or how often. -/
lemma Cited.congr (h : base.Cited cited s) {others : List Citation}
    (hsame : ∀ citation, citation ∈ cited ↔ citation ∈ others) : base.Cited others s :=
  { h with
    imports := fun edge => by
      rw [h.imports]
      simp only [Needs, hsame] }

/-- What no library owns need not be counted. -/
lemma Cited.snoc (h : base.Cited cited s) {citation : Citation}
    (hforeign : ∀ library, base.current ≠ some library → ¬ base.Owns library citation) :
    base.Cited (cited ++ [citation]) s := by
  refine { h with imports := fun edge => (h.imports edge).trans (or_congr_right ⟨?_, ?_⟩) }
  · rintro ⟨hattached, hcurrent, hne, other, hother, howns⟩
    exact ⟨hattached, hcurrent, hne, other, List.mem_append_left _ hother, howns⟩
  · rintro ⟨hattached, hcurrent, hne, other, hother, howns⟩
    refine ⟨hattached, hcurrent, hne, other, ?_, howns⟩
    rcases List.mem_append.mp hother with hother | hother
    · exact hother
    · obtain rfl := List.mem_singleton.mp hother
      refine absurd howns (hforeign edge.2 fun hsame => hne ?_)
      exact Option.some.inj (hcurrent.symm.trans hsame)

/-- To refer to the library that owns what is cited is to cite it. -/
lemma Cited.refer (h : base.Cited cited s) {library : Nat} {citation : Citation}
    (howns : ∀ other, base.Owns other citation ↔ other = library) :
    base.Cited (cited ++ [citation]) (s.refer library) := by
  rw [refer_eq]
  split_ifs with hattached
  · refine ⟨h.names.trans ⟨rfl, rfl, rfl, rfl⟩, h.current, h.detachment, fun edge => ?_,
      fun hnodup => nodup_importsAfter _ _ (h.nodup hnodup)⟩
    have hbase : base.detachment = 0 := h.detachment ▸ hattached
    rw [mem_importsAfter, h.imports, h.current]
    simp only [Needs, List.mem_append, List.mem_singleton, or_and_right, exists_or,
      exists_eq_left, howns, hbase, true_and]
    rw [or_assoc, ← and_or_left, ← and_or_left]
  · have hbase : base.detachment ≠ 0 := h.detachment ▸ hattached
    refine { h with imports := fun edge => (h.imports edge).trans ?_ }
    simp [Needs, hbase]

end Session

/-! ## Computations -/

namespace Work

variable {α β γ : Type} {base : Session} {before : List Citation}

/-- **A computation that, if it succeeds, turns some citations into others.** -/
def Cites (base : Session) (before : List Citation) (w : Work α) (after : α → List Citation) :
    Prop :=
  ∀ s, base.Cited before s → ∀ a t, w.exec s = (.ok a, t) → base.Cited (after a) t

/-- A computation that cites nothing. -/
def Silent (base : Session) (w : Work α) : Prop :=
  ∀ before, w.Cites base before fun _ => before

namespace Cites

lemma pure {a : α} {after : α → List Citation}
    (h : ∀ citation, citation ∈ before ↔ citation ∈ after a) :
    (Pure.pure a : Work α).Cites base before after := by
  intro s hs b t hrun
  obtain ⟨hb, rfl⟩ := Prod.mk.inj hrun
  obtain rfl := Except.ok.inj hb
  exact hs.congr h

lemma throw {after : α → List Citation} (failure : Failure) :
    (MonadExcept.throw failure : Work α).Cites base before after := by
  intro s _ a t hrun
  cases hrun

/-- Composition. -/
lemma bind {w : Work α} {k : α → Work β} {between : α → List Citation} {after : β → List Citation}
    (hw : w.Cites base before between) (hk : ∀ a, (k a).Cites base (between a) after) :
    (w >>= k).Cites base before after := by
  intro s hs b t hrun
  rw [exec_bind] at hrun
  rcases hfirst : w.exec s with ⟨failure | a, u⟩
  · rw [hfirst] at hrun
    cases hrun
  · rw [hfirst] at hrun
    exact hk a u (hw s hs a u hfirst) b t hrun

lemma get_bind {k : Session → Work α} {after : α → List Citation}
    (hk : ∀ s, (k s).Cites base before after) : (get >>= k).Cites base before after :=
  fun s hs a t hrun => hk s s hs a t hrun

lemma table_bind {k : SymbolTable → Work α} {after : α → List Citation}
    (hk : (k base.table).Cites base before after) : (Work.table >>= k).Cites base before after := by
  intro s hs a t hrun
  rw [exec_table_bind, hs.names.table] at hrun
  exact hk s hs a t hrun

lemma inScope {w : Work α} {after : α → List Citation} (names : List String)
    (hw : w.Cites base before after) : (Work.inScope names w).Cites base before after := by
  intro s hs a t hrun
  have hin : base.Cited before (s.pushScope names) := hs.kept ⟨rfl, rfl, rfl, rfl⟩ rfl rfl rfl
  obtain ⟨houtcome, rfl⟩ := Prod.mk.inj hrun
  exact (hw _ hin a _ (Prod.ext houtcome rfl)).kept ⟨rfl, rfl, rfl, rfl⟩ rfl rfl rfl

/-- What is computed for each of a list is cited one after another. -/
lemma mapM {f : α → Work β} {c : β → List Citation} : ∀ {xs : List α} {before : List Citation},
    (∀ before, ∀ x ∈ xs, (f x).Cites base before fun b => before ++ c b) →
      (xs.mapM f).Cites base before fun bs => before ++ bs.flatMap c
  | [], _, _ => by
      rw [List.mapM_nil]
      exact pure (by simp)
  | x :: xs, before, h => by
      rw [List.mapM_cons]
      refine bind (h before x List.mem_cons_self) fun b => ?_
      refine bind (mapM fun before y hy => h before y (List.mem_cons_of_mem _ hy)) fun bs => ?_
      exact pure (by simp)

/-- What is gathered c what it holds. -/
lemma foldlM {f : β → α → Work β} {c : β → List Citation} : ∀ {xs : List α} {init : β},
    (∀ b, ∀ x ∈ xs, (f b x).Cites base (c b) c) →
      (xs.foldlM f init).Cites base (c init) c
  | [], _, _ => pure (by simp)
  | x :: xs, init, h => by
      rw [List.foldlM_cons]
      refine bind (h init x List.mem_cons_self) fun b => ?_
      exact foldlM fun b y hy => h b y (List.mem_cons_of_mem _ hy)

end Cites

namespace Silent

lemma pure (a : α) : (Pure.pure a : Work α).Silent base :=
  fun _ => .pure fun _ => Iff.rfl

lemma throw (failure : Failure) : (MonadExcept.throw failure : Work α).Silent base :=
  fun _ => .throw failure

lemma bind {w : Work α} {k : α → Work β} (hw : w.Silent base) (hk : ∀ a, (k a).Silent base) :
    (w >>= k).Silent base :=
  fun before => .bind (hw before) fun a => hk a before

lemma pointAt (span : Span) : (modify (·.pointAt span) : Work Unit).Silent base := by
  intro before s hs a t hrun
  obtain rfl := (Prod.mk.inj hrun).2
  exact hs.kept ⟨rfl, rfl, rfl, rfl⟩ rfl rfl rfl

lemma handedOver : (modify Session.handedOver : Work Unit).Silent base := by
  intro before s hs a t hrun
  obtain rfl := (Prod.mk.inj hrun).2
  exact hs.kept ⟨rfl, rfl, rfl, rfl⟩ rfl rfl rfl

lemma report (d : Diagnostic) : (Work.report d).Silent base := by
  intro before s hs a t hrun
  rw [exec_report] at hrun
  cases hlog : s.log.add d with
  | error failure => simp [hlog] at hrun
  | ok log =>
      rw [hlog] at hrun
      obtain rfl := (Prod.mk.inj hrun).2
      exact hs.kept ⟨rfl, rfl, rfl, rfl⟩ rfl rfl rfl

lemma mapM {f : α → Work β} : ∀ {xs : List α}, (∀ x ∈ xs, (f x).Silent base) →
    (xs.mapM f).Silent base
  | [], _ => by
      rw [List.mapM_nil]
      exact pure []
  | x :: xs, h => by
      rw [List.mapM_cons]
      refine bind (h x List.mem_cons_self) fun b => ?_
      exact bind (mapM fun y hy => h y (List.mem_cons_of_mem _ hy)) fun bs => pure _

lemma forM {f : α → Work PUnit} {xs : List α} (h : ∀ x ∈ xs, (f x).Silent base) :
    (xs.forM f).Silent base := by
  induction xs with
  | nil => exact pure PUnit.unit
  | cons x xs ih =>
      exact bind (h x List.mem_cons_self) fun _ => ih fun y hy => h y (List.mem_cons_of_mem _ hy)

lemma foldlM {f : β → α → Work β} {xs : List α} (init : β)
    (h : ∀ b, ∀ x ∈ xs, (f b x).Silent base) : (xs.foldlM f init).Silent base :=
  fun before => .foldlM (c := fun _ => before) fun b x hx => h b x hx before

/-- **What adds no import cites nothing.** -/
lemma quiet (hbase : base.Settled fun _ => True) {w : Work α}
    (htraced : w.Traced (fun _ => True) base.table)
    (hcomposed : w.Composed (fun _ => True) Session.ChangesPlace) (hquiet : w.Quiet) :
    w.Silent base := by
  intro before s hs a t hrun
  have hsame := Session.SameNames.exec (hs.names.table ▸ htraced) (hs.names.settled hbase)
  have hbalanced := hcomposed.balanced s
  have himports := hquiet s
  rw [hrun] at hsame hbalanced himports
  exact hs.kept hsame hbalanced.current hbalanced.detachment himports

end Silent

/-- Asking for a name cites it. -/
lemma Cites.nameOf (hbase : base.Settled fun _ => True) {id : Nat} {symbol : Symbol}
    (hid : base.table.get? id = some symbol) (hkind : symbol.kind.isEmitted = true) :
    (Work.nameOf id).Cites base before fun name =>
      before ++ (name.map fun text => (id, text)).toList := by
  intro s hs name t hrun
  have hid' : s.table.get? id = some symbol := by rw [hs.names.table, hid]
  cases hexternal : symbol.externalName with
  | some target =>
      rw [exec_nameOf_external hid' hexternal] at hrun
      obtain ⟨hname, rfl⟩ := Prod.mk.inj hrun
      obtain rfl := Except.ok.inj hname
      refine hs.snoc fun library _ => ?_
      rintro ⟨other, hother, hnamed, -⟩
      obtain rfl := Option.some.inj (hother.symm.trans hid)
      simp [Symbol.isNamed, hexternal] at hnamed
  | none =>
      cases hfile : s.libraryOf? symbol.file with
      | none =>
          rw [exec_nameOf_foreign hid' hexternal hfile] at hrun
          cases hrun
      | some library =>
          cases hlegal : symbol.hasLegalName with
          | false =>
              rw [exec_nameOf_illegal hid' hexternal hfile hlegal] at hrun
              obtain ⟨hname, rfl⟩ := Prod.mk.inj hrun
              obtain rfl := Except.ok.inj hname
              simpa using hs
          | true =>
              obtain ⟨⟨lib, hlib⟩, record, hrecord⟩ :=
                (hs.names.settled hbase).named id symbol library hid' hkind hexternal hlegal hfile
              rw [exec_nameOf hid' hexternal hfile hlegal hlib hrecord] at hrun
              obtain ⟨hname, rfl⟩ := Prod.mk.inj hrun
              obtain rfl := Except.ok.inj hname
              have hlibrary : base.libraryOf? symbol.file = some library := by
                rw [← hfile, Session.libraryOf?, Session.libraryOf?, hs.names.assignments]
              have hflat : base.flatName symbol = some record.name := by
                rw [hs.names.registry] at hrecord
                simp [Session.flatName, hexternal, hlegal, hrecord]
              refine hs.refer fun other => ⟨?_, ?_⟩
              · rintro ⟨owner, howner, -, hother, -⟩
                obtain rfl := Option.some.inj (howner.symm.trans hid)
                exact Option.some.inj (hother.symm.trans hlibrary)
              · rintro rfl
                refine ⟨symbol, hid, ?_, hlibrary, hflat⟩
                simp [Symbol.isNamed, hkind, hexternal, hlegal]

/-- Asking for a name in its own library cites nothing that counts. -/
lemma Silent.nameOf (hbase : base.Settled fun _ => True) {id : Nat} {symbol : Symbol}
    (hid : base.table.get? id = some symbol) (hkind : symbol.kind.isEmitted = true)
    (hown : base.libraryOf? symbol.file = base.current) : (Work.nameOf id).Silent base := by
  intro before s hs name t hrun
  have hcited := Cites.nameOf hbase hid hkind s hs name t hrun
  refine { hcited with
    imports := fun edge => (hcited.imports edge).trans (or_congr_right ⟨?_, ?_⟩) }
  · rintro ⟨hattached, hwriter, hne, citation, hcitation, howns⟩
    refine ⟨hattached, hwriter, hne, citation, ?_, howns⟩
    rcases List.mem_append.mp hcitation with hcitation | hcitation
    · exact hcitation
    · obtain ⟨text, -, rfl⟩ : ∃ text, name = some text ∧ (id, text) = citation := by
        simpa using hcitation
      obtain ⟨owner, howner, -, hlibrary, -⟩ := howns
      obtain rfl := Option.some.inj (howner.symm.trans hid)
      exact absurd (Option.some.inj (hwriter.symm.trans (hown.symm.trans hlibrary))) hne
  · rintro ⟨hattached, hwriter, hne, citation, hcitation, howns⟩
    exact ⟨hattached, hwriter, hne, citation, List.mem_append_left _ hcitation, howns⟩

end Work

/-! ## Types -/

/-- What was cited, and what is mentioned after it. -/
lemma Session.Cited.gains {base s t : Session} {cited more : List Citation}
    (h : base.Cited cited s) (names : s.SameNames t) (gained : s.Gains more t) :
    base.Cited (cited ++ more) t where
  names := h.names.trans names
  current := gained.current.trans h.current
  detachment := gained.detachment.trans h.detachment
  imports edge := by
    have hsame := h.names.trans names
    have howns : ∀ citation, t.Owns edge.2 citation ↔ base.Owns edge.2 citation := fun citation => by
      simp only [Owns, flatName, libraryOf?, hsame.table, hsame.registry, hsame.assignments]
    have hneeds : t.Needs more edge ↔ base.Needs more edge := by
      simp only [Needs, howns, gained.current.trans h.current,
        gained.detachment.trans h.detachment]
    rw [gained.imports, h.imports, hneeds, or_assoc]
    simp only [Needs, List.mem_append, or_and_right, exists_or, and_or_left]
  nodup hbase := gained.nodup (h.nodup hbase)

/-- A way to render into phrases that cites the names in them. -/
def Phraser.Cites (phrase : Phraser) : Prop :=
  ∀ base : Session, base.Settled (fun _ => True) → ∀ before ty o,
    (phrase ty o).Cites base before fun p => before ++ p.phrase.citations

lemma Phraser.Cites.withComment {phrase : Phraser} (h : phrase.Cites) {base : Session}
    (hbase : base.Settled fun _ => True) {before : List Citation} (ty : Ty) (o : RenderOptions) :
    (do return (← phrase ty o).withComment : Work Phrase).Cites base before
      fun p => before ++ p.citations :=
  .bind (h base hbase before ty o) fun p => .pure (by simp)

/-- **Rendering a type cites the names in its phrase**, and nothing else. -/
theorem phraseWithin_cites (depth : Nat) : (phraseWithin depth).Cites := by
  intro base hbase before ty o s hs p t hrun
  have hsame := Session.SameNames.exec (renderWithin_traced depth ty o) (hs.names.settled hbase)
  rw [phraseWithin_erases depth ty o s, hrun] at hsame
  exact hs.gains hsame (phraseWithin_gains depth s [] ty o s (.refl s) p t hrun)

lemma phrase_cites : Phraser.Cites phrase :=
  phraseWithin_cites depthLimit

section

variable {base : Session} (hbase : base.Settled fun _ => True)
include hbase

/-- Types are compared without citing anything. -/
lemma DistinctTypes.add_silent (d : DistinctTypes) (ty : Ty) :
    (d.add render depthLimit ty).Silent base := by
  have expected : ExpectsRendering fun _ => True := ⟨trivial, fun _ _ => trivial⟩
  exact .quiet hbase (add_traced render_traced _ d ty)
    (add_composed expected (render_composed expected) _ d ty)
    (add_quiet (render_composed expected) _ d ty)

lemma distinctTypes_silent (tys : List Ty) : (distinctTypes tys).Silent base :=
  .foldlM _ fun d ty _ => DistinctTypes.add_silent hbase d ty

end

end Interop
