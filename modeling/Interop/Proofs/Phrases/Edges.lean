import Interop.Proofs.Balance
import Interop.Proofs.Items
import Interop.Proofs.Phrases.Types
import Interop.Proofs.Repetition
import Interop.Proofs.Yields

/-!
# What is mentioned is imported

Imports are noted while names are asked for, long before it is known what of a type is written.  The
names in a phrase say what was asked for, so what rendering adds to the imports can be told from the
phrase: an edge for every library that owns a mentioned symbol, and no other.  Keys and candidates are
rendered in detached computations and add nothing, so of a union only the shown member counts.

Names may be given on the way, so this holds in every session.

* `Phrase.citations` — the names in a phrase, with the symbols they stand for.
* `Work.Quiet` — a computation that adds no import; **`Work.Quiet.detached`** — a detached one is.
* `Session.Gains` — a session that has gained the imports that some citations ask for; `Work.Gains` —
  a computation of which that can be said, with its rules.
* **`phraseWithin_gains`** — rendering gains the imports that the names in its phrase ask for.
-/

namespace Interop

open Work

/-! ## Citations -/

/-- A name in a text, and the number of the symbol that it stands for. -/
abbrev Citation := Nat × String

/-- What a piece cites. -/
def Piece.citation? : Piece → Option Citation
  | .name symbol text => some (symbol, text)
  | .code _ | .comment _ => none

namespace Phrase

/-- What a phrase cites. -/
def citations (phrase : Phrase) : List Citation :=
  phrase.filterMap Piece.citation?

@[simp] lemma citations_nil : citations [] = [] := rfl

@[simp] lemma citations_code (text : String) (rest : Phrase) :
    citations (.code text :: rest) = rest.citations := rfl

@[simp] lemma citations_name (symbol : Nat) (text : String) (rest : Phrase) :
    citations (.name symbol text :: rest) = (symbol, text) :: rest.citations := rfl

@[simp] lemma citations_comment (note : String) (rest : Phrase) :
    citations (.comment note :: rest) = rest.citations := rfl

@[simp] lemma citations_append (first second : Phrase) :
    citations (first ++ second) = first.citations ++ second.citations :=
  List.filterMap_append

@[simp] lemma citations_joined (separator : String) : ∀ phrases : List Phrase,
    (joined separator phrases).citations = phrases.flatMap citations
  | [] => rfl
  | [phrase] => by simp [joined]
  | phrase :: next :: rest => by
      have ih := citations_joined separator (next :: rest)
      simp only [joined, citations_append, citations_code, ih, List.flatMap_cons]

@[simp] lemma citations_inAngles : ∀ phrases : List Phrase,
    (inAngles phrases).citations = phrases.flatMap citations
  | [] => rfl
  | _ :: _ => by simp [inAngles]

@[simp] lemma citations_parameterList (params : List (Bool × Phrase)) :
    (parameterList params).citations = params.flatMap fun p => p.2.citations := by
  have hsplit : (params.takeWhile fun p => !p.1).flatMap (fun p => p.2.citations) ++
      (params.dropWhile fun p => !p.1).flatMap (fun p => p.2.citations) =
        params.flatMap fun p => p.2.citations := by
    rw [← List.flatMap_append, List.takeWhile_append_dropWhile]
  unfold parameterList bracketed
  rw [← hsplit]
  by_cases hnone : (params.dropWhile fun p => !p.1) = []
  · simp [hnone, List.flatMap_map]
  · simp [hnone, List.flatMap_map]

end Phrase

@[simp] lemma Phrasing.citations_withComment (p : Phrasing) :
    p.withComment.citations = p.phrase.citations := by
  obtain ⟨phrase, _ | note⟩ := p
  · rfl
  · simp [withComment]

/-! ## Sessions -/

namespace Session

/-- A library owns what is cited: the symbol is declared in it, under the name that is cited. -/
def Owns (s : Session) (library : Nat) (citation : Citation) : Prop :=
  ∃ symbol, s.table.get? citation.1 = some symbol ∧ symbol.isNamed = true ∧
    s.libraryOf? symbol.file = some library ∧ s.flatName symbol = some citation.2

/-- An import that citations ask for in the library that is being written. -/
def Needs (s : Session) (cited : List Citation) (edge : Nat × Nat) : Prop :=
  s.detachment = 0 ∧ s.current = some edge.1 ∧ edge.1 ≠ edge.2 ∧
    ∃ citation ∈ cited, s.Owns edge.2 citation

lemma mem_importsAfter (current : Option Nat) (library : Nat) (imports : List (Nat × Nat))
    (edge : Nat × Nat) : edge ∈ importsAfter current library imports ↔
      edge ∈ imports ∨ (current = some edge.1 ∧ edge.1 ≠ edge.2 ∧ edge.2 = library) := by
  obtain ⟨importer, imported⟩ := edge
  cases current with
  | none => simp [importsAfter]
  | some writer =>
      simp only [importsAfter]
      split_ifs with hnew
      · simp only [Bool.and_eq_true, bne_iff_ne, Bool.not_eq_true', List.contains_eq_mem,
          decide_eq_false_iff_not] at hnew
        simp only [List.mem_append, List.mem_singleton, Prod.mk.injEq, Option.some.injEq]
        grind
      · simp only [Bool.and_eq_true, bne_iff_ne, Bool.not_eq_true', List.contains_eq_mem,
          decide_eq_false_iff_not] at hnew
        simp only [Option.some.injEq]
        grind

lemma nodup_importsAfter (current : Option Nat) (library : Nat) {imports : List (Nat × Nat)}
    (h : imports.Nodup) : (importsAfter current library imports).Nodup := by
  cases current with
  | none => exact h
  | some writer =>
      simp only [importsAfter]
      split_ifs with hnew
      · refine List.Nodup.append h (List.nodup_singleton _) ?_
        simpa using (Bool.and_eq_true_iff.mp hnew).2
      · exact h

end Session

/-! ## Computations that add no import -/

namespace Work

variable {α β : Type} {fails : Failure → Prop} {changes : (Session → Session) → Prop}

/-- A computation that adds no import, and loses none. -/
def Quiet (w : Work α) : Prop :=
  ∀ s, (w.exec s).2.imports = s.imports

/-- What is done in a detached session adds no import. -/
lemma detachment_kept (hchanges : ∀ change, changes change → ∀ s : Session,
    (change s).detachment = s.detachment ∧ (change s).imports = s.imports) :
    Kept changes fun s t =>
      t.detachment = s.detachment ∧ (s.detachment ≠ 0 → t.imports = s.imports) where
  refl _ := ⟨rfl, fun _ => rfl⟩
  trans h k := ⟨k.1.trans h.1, fun hs => (k.2 (h.1 ▸ hs)).trans (h.2 hs)⟩
  modify change h s := ⟨(hchanges change h s).1, fun _ => (hchanges change h s).2⟩
  report _ _ _ _ := ⟨rfl, fun _ => rfl⟩
  refer s library := by
    rw [refer_eq]
    split_ifs with hs
    · exact ⟨rfl, fun hne => absurd hs hne⟩
    · exact ⟨rfl, fun _ => rfl⟩
  allocate _ _ _ _ _ := ⟨rfl, fun _ => rfl⟩
  inScope _ _ _ h := h
  expanding _ _ _ h := h
  detached _ _ h := ⟨congrArg Nat.pred h.1, fun _ => h.2 (Nat.succ_ne_zero _)⟩

lemma Change.detachment {change : Session → Session} (h : Session.Change change) (s : Session) :
    (change s).detachment = s.detachment ∧ (change s).imports = s.imports := by
  cases h <;> exact ⟨rfl, rfl⟩

/-- **A computation adds no import in a detached session**, whatever it does. -/
theorem Composed.detached_imports {w : Work α} (h : w.Composed fails Session.Change) {s : Session}
    (hs : s.detachment ≠ 0) : (w.exec s).2.imports = s.imports :=
  (h.kept (detachment_kept fun _ => Change.detachment) s).2 hs

namespace Quiet

lemma pure (a : α) : (Pure.pure a : Work α).Quiet :=
  fun _ => rfl

lemma throw (failure : Failure) : (MonadExcept.throw failure : Work α).Quiet :=
  fun _ => rfl

lemma bind {w : Work α} {k : α → Work β} (hw : w.Quiet) (hk : ∀ a, (k a).Quiet) :
    (w >>= k).Quiet := by
  intro s
  have hfirst := hw s
  rw [exec_bind]
  rcases hrun : w.exec s with ⟨failure | a, t⟩
  all_goals rw [hrun] at hfirst
  · exact hfirst
  · exact (hk a t).trans hfirst

lemma get_bind {k : Session → Work α} (hk : ∀ s, (k s).Quiet) : (get >>= k).Quiet :=
  fun s => hk s s

/-- **A detached computation is quiet**, however many computations it is detached from. -/
lemma detached {w : Work α} (h : w.Composed fails Session.Change) : (Work.detached w).Quiet :=
  fun s => h.detached_imports (s := s.detach) (Nat.succ_ne_zero _)

lemma report (d : Diagnostic) : (Work.report d).Quiet := by
  intro s
  rw [exec_report]
  cases s.log.add d <;> rfl

lemma foldlM {f : β → α → Work β} : ∀ {xs : List α} (b : β),
    (∀ b, ∀ x ∈ xs, (f b x).Quiet) → (xs.foldlM f b).Quiet
  | [], b, _ => pure b
  | x :: xs, b, h => by
      rw [List.foldlM_cons]
      exact bind (h b x (by simp)) fun b' => foldlM b' fun b y hy => h b y (by simp [hy])

lemma filterM {f : α → Work Bool} {xs : List α} (h : ∀ x ∈ xs, (f x).Quiet) :
    (xs.filterM f).Quiet := by
  rw [filterM_eq_foldlM]
  exact bind (foldlM [] fun kept x hx => bind (h x hx) fun _ => pure _) fun _ => pure _

end Quiet

end Work


/-! ## What a session gains -/

/-- A session that still has what names and imports depend on: the table, the files, the library that
is being written and all names that were given. -/
structure Session.Retains (s t : Session) : Prop where
  table : t.table = s.table
  assignments : t.assignments = s.assignments
  current : t.current = s.current
  detachment : t.detachment = s.detachment
  record : ∀ path record, s.registry.find? path = some record →
    t.registry.find? path = some record

/-- **A session that has gained the imports that some citations ask for.**  Every one of them names a
symbol by the name that it has. -/
structure Session.Gains (base : Session) (cited : List Citation) (s : Session) : Prop
    extends base.Retains s where
  named : ∀ citation ∈ cited, ∃ symbol, s.table.get? citation.1 = some symbol ∧
    symbol.kind.isEmitted = true ∧ s.flatName symbol = some citation.2
  imports : ∀ edge, edge ∈ s.imports ↔ edge ∈ base.imports ∨ s.Needs cited edge
  /-- No import is noted twice. -/
  nodup : base.imports.Nodup → s.imports.Nodup

namespace Session

variable {base s t u : Session} {cited : List Citation}

lemma Retains.refl (s : Session) : s.Retains s :=
  ⟨rfl, rfl, rfl, rfl, fun _ _ h => h⟩

lemma Retains.trans (h : s.Retains t) (k : t.Retains u) : s.Retains u :=
  ⟨k.table.trans h.table, k.assignments.trans h.assignments, k.current.trans h.current,
    k.detachment.trans h.detachment,
    fun path record hr => k.record path record (h.record path record hr)⟩

lemma Balanced.retains (h : s.Balanced t) : s.Retains t :=
  ⟨h.table, h.assignments, h.current, h.detachment, fun _ _ hr => h.record hr⟩

/-- A name that is given stays. -/
lemma Retains.flatName (h : s.Retains t) {symbol : Symbol} {name : String}
    (hname : s.flatName symbol = some name) : t.flatName symbol = some name := by
  unfold Session.flatName at hname ⊢
  cases hexternal : symbol.externalName with
  | some target => simpa [hexternal] using hname
  | none =>
      rw [hexternal] at hname
      dsimp only at hname ⊢
      split_ifs at hname ⊢
      cases hfind : s.registry.find? symbol.path with
      | none => simp [hfind] at hname
      | some record => simpa [hfind, h.record _ _ hfind] using hname

/-- What is cited by its name has an owner if it is declared in the run. -/
lemma owns_iff {id : Nat} {name : String} {symbol : Symbol}
    (hid : s.table.get? id = some symbol) (hkind : symbol.kind.isEmitted = true)
    (hname : s.flatName symbol = some name) (library : Nat) :
    s.Owns library (id, name) ↔
      symbol.externalName = none ∧ s.libraryOf? symbol.file = some library := by
  constructor
  · rintro ⟨owner, howner, hnamed, hlibrary, -⟩
    obtain rfl := Option.some.inj (howner.symm.trans hid)
    simp only [Symbol.isNamed, Bool.and_eq_true, Option.isNone_iff_eq_none] at hnamed
    exact ⟨hnamed.1.2, hlibrary⟩
  · rintro ⟨hexternal, hlibrary⟩
    have hlegal : symbol.hasLegalName = true := by
      by_contra hillegal
      simp [Session.flatName, hexternal, hillegal] at hname
    exact ⟨symbol, hid, by simp [Symbol.isNamed, hkind, hexternal, hlegal], hlibrary, hname⟩

namespace Gains

lemma refl (base : Session) : base.Gains [] base :=
  ⟨.refl base, by simp, fun edge => by simp [Needs], id⟩

/-- What was cited keeps its name and its owner. -/
lemma named_after (h : base.Gains cited s) (k : s.Retains t) {citation : Citation}
    (hcited : citation ∈ cited) : (∃ symbol, t.table.get? citation.1 = some symbol ∧
      symbol.kind.isEmitted = true ∧ t.flatName symbol = some citation.2) ∧
      ∀ library, t.Owns library citation ↔ s.Owns library citation := by
  obtain ⟨symbol, hid, hkind, hname⟩ := h.named citation hcited
  have hid' : t.table.get? citation.1 = some symbol := k.table ▸ hid
  refine ⟨⟨symbol, hid', hkind, k.flatName hname⟩, fun library => ?_⟩
  rw [owns_iff hid hkind hname, owns_iff hid' hkind (k.flatName hname), libraryOf?, libraryOf?,
    k.assignments]

lemma needs_congr (h : base.Gains cited s) (k : s.Retains t) (edge : Nat × Nat) :
    t.Needs cited edge ↔ s.Needs cited edge := by
  have howns : (∃ citation ∈ cited, t.Owns edge.2 citation) ↔
      ∃ citation ∈ cited, s.Owns edge.2 citation :=
    exists_congr fun citation => and_congr_right fun hcited => (h.named_after k hcited).2 edge.2
  rw [Needs, Needs, howns, k.detachment, k.current]

/-- What adds no import leaves what was gained as it is. -/
lemma kept (h : base.Gains cited s) (k : s.Retains t) (imports : t.imports = s.imports) :
    base.Gains cited t where
  toRetains := h.toRetains.trans k
  named _ hcited := (h.named_after k hcited).1
  imports edge := by rw [imports, h.imports, h.needs_congr k]
  nodup := imports ▸ h.nodup

/-- Only what is cited counts, not in which order or how often. -/
lemma congr (h : base.Gains cited s) {others : List Citation}
    (hsame : ∀ citation, citation ∈ cited ↔ citation ∈ others) : base.Gains others s :=
  { h with
    named := fun citation hcited => h.named citation ((hsame citation).mpr hcited)
    imports := fun edge => by
      rw [h.imports]
      simp only [Needs, hsame] }

/-- One more citation, and the import that it asks for. -/
lemma snoc (h : base.Gains cited s) (k : s.Retains t) {id : Nat} {name : String} {symbol : Symbol}
    (hid : t.table.get? id = some symbol) (hkind : symbol.kind.isEmitted = true)
    (hname : t.flatName symbol = some name)
    (himports : ∀ edge, edge ∈ t.imports ↔ edge ∈ s.imports ∨ t.Needs [(id, name)] edge)
    (hnodup : s.imports.Nodup → t.imports.Nodup) : base.Gains (cited ++ [(id, name)]) t where
  toRetains := h.toRetains.trans k
  named other hother := by
    rcases List.mem_append.mp hother with hother | hother
    · exact (h.named_after k hother).1
    · obtain rfl := List.mem_singleton.mp hother
      exact ⟨symbol, hid, hkind, hname⟩
  imports edge := by
    rw [himports, h.imports, or_assoc, ← h.needs_congr k]
    simp only [Needs, List.mem_append, or_and_right, exists_or, and_or_left]
  nodup hbase := hnodup (h.nodup hbase)

end Gains

end Session

/-! ### Names that are given on the way -/

namespace Work

/-- A declaration that has a name, or can be given one, is referred to first. -/
lemma exec_nameOf_legal {s : Session} {id library : Nat} {symbol : Symbol}
    (hid : s.table.get? id = some symbol) (hexternal : symbol.externalName = none)
    (hfile : s.libraryOf? symbol.file = some library) (hlegal : symbol.hasLegalName = true) :
    (nameOf id).exec s = next (fun name => pure (some name))
      ((allocate symbol.path library).exec (s.refer library)) := by
  unfold nameOf
  rw [exec_get_bind]
  simp only [hid, hexternal, hfile, hlegal, if_true]
  rw [exec_bind, exec_modify]
  simp only [next]
  exact exec_bind _ _ _

/-- A declaration that can be written has a name once it was asked for. -/
lemma exec_nameOf_given {s t : Session} {id library : Nat} {symbol : Symbol} {name : Option String}
    (hid : s.table.get? id = some symbol) (hexternal : symbol.externalName = none)
    (hfile : s.libraryOf? symbol.file = some library) (hlegal : symbol.hasLegalName = true)
    (hrun : (nameOf id).exec s = (.ok name, t)) : ∃ text, name = some text ∧ s.Retains t ∧
      t.flatName symbol = some text ∧ t.imports = (s.refer library).imports := by
  rw [exec_nameOf_legal hid hexternal hfile hlegal] at hrun
  cases hlib : (s.refer library).library? library with
  | none =>
      rw [exec_allocate_missing hlib] at hrun
      cases hrun
  | some lib =>
      rw [exec_allocate hlib] at hrun
      obtain ⟨hname, rfl⟩ := Prod.mk.inj hrun
      obtain rfl := Except.ok.inj hname
      have hbalanced := (Session.Balanced.refer s library).trans (.allocate _ symbol.path hlib)
      obtain ⟨record, hrecord, htext⟩ := (s.refer library).registry.find?_answer symbol.path lib
      refine ⟨_, rfl, hbalanced.retains, ?_, rfl⟩
      simp only [Session.flatName, hexternal, hlegal, if_true, hrecord, Option.map_some, htext]

end Work

namespace Session

lemma mem_imports_refer (s : Session) (library : Nat) (edge : Nat × Nat) :
    edge ∈ (s.refer library).imports ↔ edge ∈ s.imports ∨
      (s.detachment = 0 ∧ s.current = some edge.1 ∧ edge.1 ≠ edge.2 ∧ edge.2 = library) := by
  rw [refer_eq]
  split_ifs with hs
  · rw [mem_importsAfter]
    simp [hs]
  · simp [hs]

lemma nodup_imports_refer (s : Session) (library : Nat) (h : s.imports.Nodup) :
    (s.refer library).imports.Nodup := by
  rw [refer_eq]
  split_ifs
  · exact nodup_importsAfter _ _ h
  · exact h

end Session


namespace Work

variable {α β : Type} {base : Session} {before : List Citation}

/-- **A computation that, if it succeeds, turns some citations into others**, and gains the imports
that are asked for. -/
def Gains (base : Session) (before : List Citation) (w : Work α) (after : α → List Citation) :
    Prop :=
  ∀ s, base.Gains before s → ∀ a t, w.exec s = (.ok a, t) → base.Gains (after a) t

namespace Gains

lemma pure {a : α} {after : α → List Citation}
    (h : ∀ citation, citation ∈ before ↔ citation ∈ after a) :
    (Pure.pure a : Work α).Gains base before after := by
  intro s hs b t hrun
  obtain ⟨hb, rfl⟩ := Prod.mk.inj hrun
  obtain rfl := Except.ok.inj hb
  exact hs.congr h

lemma throw {after : α → List Citation} (failure : Failure) :
    (MonadExcept.throw failure : Work α).Gains base before after := by
  intro s _ a t hrun
  cases hrun

/-- Composition. -/
lemma bind {w : Work α} {k : α → Work β} {between : α → List Citation} {after : β → List Citation}
    (hw : w.Gains base before between) (hk : ∀ a, (k a).Gains base (between a) after) :
    (w >>= k).Gains base before after := by
  intro s hs b t hrun
  rw [exec_bind] at hrun
  rcases hfirst : w.exec s with ⟨failure | a, u⟩
  · rw [hfirst] at hrun
    cases hrun
  · rw [hfirst] at hrun
    exact hk a u (hw s hs a u hfirst) b t hrun

lemma get_bind {k : Session → Work α} {after : α → List Citation}
    (hk : ∀ s, (k s).Gains base before after) : (get >>= k).Gains base before after :=
  fun s hs a t hrun => hk s s hs a t hrun

lemma table_bind {k : SymbolTable → Work α} {after : α → List Citation}
    (hk : (k base.table).Gains base before after) : (Work.table >>= k).Gains base before after := by
  intro s hs a t hrun
  rw [exec_table_bind, hs.table] at hrun
  exact hk s hs a t hrun

/-- A change that is undone and on which neither names nor imports depend. -/
lemma within {enter leave : Session → Session} {w : Work α} {after : α → List Citation}
    (henter : ∀ s : Session, s.Retains (enter s) ∧ (enter s).imports = s.imports)
    (hleave : ∀ s : Session, s.Retains (leave s) ∧ (leave s).imports = s.imports)
    (hw : w.Gains base before after) : (Work.within enter leave w).Gains base before after := by
  intro s hs a t hrun
  obtain ⟨houtcome, rfl⟩ := Prod.mk.inj hrun
  have hin := hw _ (hs.kept (henter s).1 (henter s).2) a _ (Prod.ext houtcome rfl)
  exact hin.kept (hleave _).1 (hleave _).2

lemma inScope {w : Work α} {after : α → List Citation} (names : List String)
    (hw : w.Gains base before after) : (Work.inScope names w).Gains base before after :=
  hw.within (fun _ => ⟨⟨rfl, rfl, rfl, rfl, fun _ _ h => h⟩, rfl⟩)
    fun _ => ⟨⟨rfl, rfl, rfl, rfl, fun _ _ h => h⟩, rfl⟩

lemma expanding {w : Work α} {after : α → List Citation} (id : Nat)
    (hw : w.Gains base before after) : (Work.expanding id w).Gains base before after :=
  hw.within (fun _ => ⟨⟨rfl, rfl, rfl, rfl, fun _ _ h => h⟩, rfl⟩)
    fun _ => ⟨⟨rfl, rfl, rfl, rfl, fun _ _ h => h⟩, rfl⟩

/-- What is computed for each of a list is cited one after another. -/
lemma mapM {f : α → Work β} {c : β → List Citation} : ∀ {xs : List α} {before : List Citation},
    (∀ before, ∀ x ∈ xs, (f x).Gains base before fun b => before ++ c b) →
      (xs.mapM f).Gains base before fun bs => before ++ bs.flatMap c
  | [], _, _ => by
      rw [List.mapM_nil]
      exact pure (by simp)
  | x :: xs, before, h => by
      rw [List.mapM_cons]
      refine bind (h before x List.mem_cons_self) fun b => ?_
      refine bind (mapM fun before y hy => h before y (List.mem_cons_of_mem _ hy)) fun bs => ?_
      exact pure (by simp)

/-- **What is quiet gains nothing.** -/
lemma quiet {w : Work α} (hw : w.Composed (fun _ => True) Session.NoChange)
    (hquiet : w.Quiet) : w.Gains base before fun _ => before := by
  intro s hs a t hrun
  have hbalanced := (hw.undisturbed s).toBalanced
  have himports := hquiet s
  rw [hrun] at hbalanced himports
  exact hs.kept hbalanced.retains himports

lemma report (d : Diagnostic) : (Work.report d).Gains base before fun _ => before :=
  quiet (.report d) (.report d)

/-- **Asking for a name cites it.**  Its library is imported before the name is given. -/
lemma nameOf {id : Nat} {symbol : Symbol} (hid : base.table.get? id = some symbol)
    (hkind : symbol.kind.isEmitted = true) : (Work.nameOf id).Gains base before fun name =>
      before ++ (name.map fun text => (id, text)).toList := by
  intro s hs name t hrun
  have hid' : s.table.get? id = some symbol := by rw [hs.table, hid]
  cases hexternal : symbol.externalName with
  | some target =>
      rw [exec_nameOf_external hid' hexternal] at hrun
      obtain ⟨hname, rfl⟩ := Prod.mk.inj hrun
      obtain rfl := Except.ok.inj hname
      have hflat : s.flatName symbol = some target := by simp [Session.flatName, hexternal]
      refine hs.snoc (.refl s) hid' hkind hflat (fun edge => ?_) fun h => h
      simp [Session.Needs, Session.owns_iff hid' hkind hflat, hexternal]
  | none =>
      cases hfile : s.libraryOf? symbol.file with
      | none =>
          rw [exec_nameOf_foreign hid' hexternal hfile] at hrun
          cases hrun
      | some library =>
          cases hlegal : symbol.hasLegalName with
          | false =>
              rw [exec_nameOf_illegal hid' hexternal hfile hlegal] at hrun
              obtain ⟨hname, rfl⟩ := Prod.mk.inj hrun
              obtain rfl := Except.ok.inj hname
              simpa using hs
          | true =>
              obtain ⟨text, rfl, hretains, hflat, himports⟩ :=
                exec_nameOf_given hid' hexternal hfile hlegal hrun
              have hid'' : t.table.get? id = some symbol := hretains.table ▸ hid'
              have hfile' : t.libraryOf? symbol.file = some library := by
                rw [← hfile, Session.libraryOf?, Session.libraryOf?, hretains.assignments]
              refine hs.snoc hretains hid'' hkind hflat (fun edge => ?_) ?_
              · have howns := Session.owns_iff hid'' hkind hflat edge.2
                simp only [Session.Needs, List.mem_singleton, exists_eq_left, howns, hexternal,
                  hfile', hretains.detachment, hretains.current, himports, true_and,
                  Option.some.injEq]
                rw [Session.mem_imports_refer, eq_comm (a := edge.2)]
              · rw [himports]
                exact Session.nodup_imports_refer s library

end Gains

end Work

/-! ## Rendering -/

/-- A way to render into phrases that gains the imports that the names in them ask for. -/
def Phraser.Gains (phrase : Phraser) : Prop :=
  ∀ base before ty o, (phrase ty o).Gains base before fun p => before ++ p.phrase.citations

/-- Options for the member that a union shows. -/
def RenderOptions.display (o : RenderOptions) : RenderOptions :=
  { o with hideComment := true, typeArguments := none }

/-- The types that are types of the target where they are rendered with the options. -/
def Renderer.concrete (render : Renderer) (o : RenderOptions) (tys : List Ty) : Work (List Ty) :=
  tys.filterM fun ty => do return (← Work.detached (render ty o)).isConcrete

section

variable {render : Renderer} (hrender : render.Composed (fun _ => True) Session.NoChange)
include hrender

/-! ### What only decides something -/

lemma Renderer.Composed.detached_quiet (ty : Ty) (o : RenderOptions) :
    (Work.detached (render ty o)).Quiet :=
  .detached ((hrender ty o).mono (fun _ h => h) fun _ h => h.elim)

lemma Renderer.Composed.key_quiet (ty : Ty) : (render.key ty).Quiet :=
  .bind (hrender.detached_quiet ty .key) fun r => .pure r.text

/-- The members that a union can show are found in detached computations. -/
lemma Renderer.concrete_quiet (o : RenderOptions) (tys : List Ty) : (render.concrete o tys).Quiet :=
  .filterM fun ty _ => .bind (hrender.detached_quiet ty o) fun _ => .pure _

lemma Renderer.concrete_composed (o : RenderOptions) (tys : List Ty) :
    (render.concrete o tys).Composed (fun _ => True) Session.NoChange :=
  .filterM fun ty _ => .bind (.detached (hrender ty o)) fun _ => .pure _

namespace DistinctTypes

lemma add_quiet (steps : Nat) (d : DistinctTypes) (ty : Ty) : (d.add render steps ty).Quiet := by
  refine .get_bind fun s => ?_
  cases components s.table s.expanding steps ty with
  | none => exact .throw _
  | some parts => exact .foldlM d fun d part _ => .bind (hrender.key_quiet part) fun key => .pure _

lemma ofTypes_quiet (steps : Nat) (tys : List Ty) : (ofTypes render steps tys).Quiet :=
  .foldlM _ fun d ty _ => add_quiet hrender steps d ty

lemma representative_quiet (steps : Nat) (tys : List Ty) :
    (representative render steps tys).Quiet :=
  .bind (ofTypes_quiet hrender steps tys) fun _ => .pure _

end DistinctTypes

/-! ### Forms of types -/

variable {base : Session} {before : List Citation} {phrase : Phraser} (h : phrase.Gains)

omit hrender in
include h in
lemma phraseSignature_gains (o : RenderOptions) (sig : Signature) :
    (phraseSignature phrase o sig).Gains base before fun p => before ++ p.citations := by
  refine .bind (h base before sig.result o) fun result => ?_
  refine .bind (.mapM (c := fun p : Bool × Phrase => p.2.citations) fun before p _ => ?_)
    fun params => .pure ?_
  · exact .bind (h base before p.type o) fun type => .pure (by simp)
  · simp

omit hrender in
include h in
lemma phraseFunction_gains (sig : Signature) (o : RenderOptions) :
    (phraseFunction phrase sig o).Gains base before fun p => before ++ p.phrase.citations := by
  unfold phraseFunction
  split_ifs
  · exact .table_bind (.pure (by simp [Phrasing.annotated]))
  · exact .bind (.inScope _ (phraseSignature_gains h o.nested sig)) fun p =>
      .pure (by simp [Phrasing.plain])

omit hrender in
include h in
lemma phraseAlias_gains (id : Nat) (symbol : Symbol) (args : List Ty) (o : RenderOptions) :
    (phraseAlias phrase id symbol args o).Gains base before
      fun p => before ++ p.phrase.citations := by
  unfold phraseAlias
  cases symbol.aliased with
  | none => exact .pure (by simp [Phrasing.annotated])
  | some body =>
      refine .get_bind fun s => ?_
      dsimp only
      split_ifs
      · exact .bind (.get_bind fun _ => .report _) fun _ => .pure (by simp [Phrasing.annotated])
      · exact .expanding id (h base before _ _)
      · exact .expanding id (h base before _ _)

omit hrender in
include h in
lemma phraseNominal_gains {id : Nat} {symbol : Symbol} (hid : base.table.get? id = some symbol)
    (hkind : symbol.kind.isEmitted = true) (args : List Ty) (o : RenderOptions) :
    (phraseNominal phrase id symbol args o).Gains base before
      fun p => before ++ p.phrase.citations := by
  refine .bind (.nameOf hid hkind) fun name => ?_
  cases name with
  | none => exact .pure (by simp [Phrasing.annotated])
  | some name =>
      dsimp only
      split_ifs
      · exact .pure (by simp [Phrasing.plain])
      · refine .bind (.mapM (c := Phrase.citations) fun before arg _ => ?_) fun args =>
          .pure (by simp [Phrasing.plain])
        exact .bind (h base before arg o.argument) fun p => .pure (by simp)

omit hrender in
include h in
lemma phraseSymbol_gains (id : Nat) (args : List Ty) (o : RenderOptions) :
    (phraseSymbol phrase id args o).Gains base before fun p => before ++ p.phrase.citations := by
  refine .table_bind ?_
  cases hid : base.table.get? id with
  | none =>
      exact .bind (.get_bind fun _ => .report _) fun _ => .pure (by simp [Phrasing.annotated])
  | some symbol =>
      cases hkind : symbol.kind with
      | «alias» => simpa only [hkind] using phraseAlias_gains h id symbol args o
      | klass | interface | enum =>
          have hemitted : symbol.kind.isEmitted = true := by rw [hkind]; rfl
          simpa only [hkind] using phraseNominal_gains h hid hemitted args o
      | function | «variable» | typeParameter | nameSpace =>
          simp only [hkind]
          exact .bind (.get_bind fun _ => .report _) fun _ => .pure (by simp [Phrasing.annotated])

omit hrender in
include h in
lemma phraseShape_gains (members : List Member) (o : RenderOptions) :
    (phraseShape phrase members o).Gains base before fun p => before ++ p.phrase.citations := by
  unfold phraseShape
  split
  · exact phraseFunction_gains h _ o
  · exact .table_bind (.pure (by simp [Phrasing.annotated]))

include h in
/-- Only the member that is shown asks for imports. -/
lemma phraseUnion_gains (steps : Nat) (ty : Ty) (members : List Ty) (o : RenderOptions) :
    (phraseUnion render phrase steps ty members o).Gains base before
      fun p => before ++ p.phrase.citations := by
  have expected : ExpectsRendering fun _ => True := ⟨trivial, fun _ _ => trivial⟩
  have hend : ∀ shown : Phrase, Work.Gains base (before ++ shown.citations)
      (if members.length > 1 then do return Phrasing.annotated shown (ty.text (← Work.table)) o
        else return Phrasing.plain shown)
      fun p => before ++ p.phrase.citations := by
    intro shown
    split_ifs
    · exact .table_bind (.pure (by simp [Phrasing.annotated]))
    · exact .pure (by simp [Phrasing.plain])
  refine .bind (.quiet (DistinctTypes.ofTypes_composed expected hrender steps members)
    (DistinctTypes.ofTypes_quiet hrender steps members)) fun merged => ?_
  refine .bind (.quiet (Renderer.concrete_composed hrender _ merged.types)
    (Renderer.concrete_quiet hrender _ merged.types)) fun concrete => .get_bind fun s => ?_
  dsimp only
  cases shownMember (o.policy.getD s.policy) concrete with
  | none => exact .bind (.pure (by simp)) hend
  | some member => exact .bind (h base before member _) fun p => .bind (.pure (by simp)) hend

end

/-- **Rendering a type gains the imports that the names in its phrase ask for**, in every session. -/
theorem phraseWithin_gains (depth : Nat) : (phraseWithin depth).Gains := by
  have expected : ExpectsRendering fun _ => True := ⟨trivial, fun _ _ => trivial⟩
  induction depth with
  | zero => exact fun base before ty o => .throw _
  | succ depth ih =>
      have hrender : (renderWithin depth).Composed (fun _ => True) Session.NoChange :=
        renderWithin_composed expected depth
      have hrepresentative : ∀ (base : Session) before tys,
          (DistinctTypes.representative (renderWithin depth) depth tys).Gains base before
            fun _ => before := fun base before tys =>
        .quiet (DistinctTypes.representative_composed expected hrender depth tys)
          (DistinctTypes.representative_quiet hrender depth tys)
      intro base before ty o
      cases ty with
      | primitive kind => exact .pure (by simp [Phrasing.ofRendered])
      | nominal symbol args => exact phraseSymbol_gains ih symbol args o
      | «alias» symbol => exact phraseSymbol_gains ih symbol _ o
      | function sig => exact phraseFunction_gains ih sig o
      | array element =>
          refine .bind (hrepresentative base before [element]) fun element => ?_
          exact .bind (ih base before element _) fun p => .pure (by simp [Phrasing.plain])
      | tuple elements =>
          refine .bind (hrepresentative base before elements) fun element => ?_
          exact .bind (ih base before element _) fun p =>
            .table_bind (.pure (by simp [Phrasing.annotated]))
      | shape members => exact phraseShape_gains ih members o
      | param name =>
          simp only [phraseWithin]
          cases o.bindings.bind (·.lookup name) with
          | some bound => exact ih base before bound o
          | none =>
              refine .get_bind fun s => ?_
              split_ifs
              · exact .pure (by simp [Phrasing.plain])
              · exact .pure (by simp [Phrasing.annotated])
      | literal kind text => exact .pure (by simp [Phrasing.ofRendered])
      | union members => exact phraseUnion_gains hrender ih depth _ members o
      | intersection members => exact phraseUnion_gains hrender ih depth _ members o
      | raw text => exact .pure (by simp [Phrasing.annotated])

/-! ## What a union shows -/

variable {render : Renderer}

namespace DistinctTypes

lemma mem_types_insert {d : DistinctTypes} {key : String} {ty member : Ty}
    (h : member ∈ (d.insert key ty).types) : member ∈ d.types ∨ member = ty := by
  unfold insert at h
  split_ifs at h
  · exact Or.inl h
  · simpa [types] using h

/-- What is kept of a type is one of its components, or was there. -/
lemma mem_types_add {steps : Nat} {d d' : DistinctTypes} {ty : Ty} {s t : Session}
    (h : (d.add render steps ty).exec s = (.ok d', t)) {member : Ty} (hmember : member ∈ d'.types) :
    member ∈ d.types ∨ ∃ parts, components s.table s.expanding steps ty = some parts ∧
      member ∈ parts := by
  have hfold : ∀ (parts : List Ty) (d : DistinctTypes) (s : Session),
      (parts.foldlM (fun (d : DistinctTypes) part => do
        return d.insert (← render.key part) part) d).exec s = (.ok d', t) →
          member ∈ d.types ∨ member ∈ parts := by
    intro parts
    induction parts with
    | nil =>
        intro d s h
        obtain rfl := Except.ok.inj (Prod.mk.inj h).1
        exact Or.inl hmember
    | cons part parts ih =>
        intro d s h
        rw [List.foldlM_cons] at h
        obtain ⟨d'', u, hfirst, hrest⟩ := exec_bind_ok h
        obtain ⟨key, v, -, hinsert⟩ := exec_bind_ok hfirst
        obtain rfl := Except.ok.inj (Prod.mk.inj hinsert).1
        rcases ih _ u hrest with hd | hparts
        · rcases mem_types_insert hd with hd | rfl
          · exact Or.inl hd
          · exact Or.inr List.mem_cons_self
        · exact Or.inr (List.mem_cons_of_mem _ hparts)
  unfold add at h
  rw [exec_get_bind] at h
  cases hparts : components s.table s.expanding steps ty with
  | none =>
      rw [hparts] at h
      cases h
  | some parts =>
      rw [hparts] at h
      exact (hfold parts d s h).imp id fun h => ⟨parts, rfl, h⟩

/-- Distinct types are components of the types that they are made of. -/
lemma mem_types_ofTypes (hrender : render.Composed (fun _ => True) Session.NoChange) {steps : Nat}
    {tys : List Ty} {d : DistinctTypes} {s t : Session}
    (h : (ofTypes render steps tys).exec s = (.ok d, t)) {member : Ty} (hmember : member ∈ d.types) :
    ∃ ty ∈ tys, ∃ parts, components s.table s.expanding steps ty = some parts ∧ member ∈ parts := by
  have hfold : ∀ (tys : List Ty) (start : DistinctTypes) (s : Session),
      (tys.foldlM (add render steps) start).exec s = (.ok d, t) → member ∈ start.types ∨
        ∃ ty ∈ tys, ∃ parts, components s.table s.expanding steps ty = some parts ∧
          member ∈ parts := by
    intro tys
    induction tys with
    | nil =>
        intro start s h
        obtain rfl := Except.ok.inj (Prod.mk.inj h).1
        exact Or.inl hmember
    | cons ty tys ih =>
        intro start s h
        rw [List.foldlM_cons] at h
        obtain ⟨d', u, hadd, hrest⟩ := exec_bind_ok h
        have expected : ExpectsRendering fun _ => True := ⟨trivial, fun _ _ => trivial⟩
        have hsame := (add_composed expected hrender steps start ty).undisturbed s
        rw [hadd] at hsame
        rcases ih d' u hrest with hd | ⟨other, hother, parts, hparts, hmem⟩
        · exact (mem_types_add hadd hd).imp id fun ⟨parts, hparts, hmem⟩ =>
            ⟨ty, List.mem_cons_self, parts, hparts, hmem⟩
        · rw [hsame.table, hsame.expanding] at hparts
          exact Or.inr ⟨other, List.mem_cons_of_mem _ hother, parts, hparts, hmem⟩
  exact (hfold tys {} s h).resolve_left List.not_mem_nil

end DistinctTypes

/-- **What a union shows** is the untyped type, or what one of its components is rendered to where
nothing but its names, reports and keys came before. -/
lemma phraseUnion_shows {phrase : Phraser}
    (hrender : render.Composed (fun _ => True) Session.NoChange) {steps : Nat} {ty : Ty}
    {members : List Ty} {o : RenderOptions} {s t : Session} {p : Phrasing}
    (h : (phraseUnion render phrase steps ty members o).exec s = (.ok p, t)) :
    (p.phrase = [.code untypedText] ∧ t.imports = s.imports) ∨
      ∃ member parts u shown, (∃ m ∈ members, components s.table s.expanding steps m = some parts) ∧
        member ∈ parts ∧ s.Undisturbed u ∧ u.imports = s.imports ∧
        (phrase member o.display).exec u =
          (.ok shown, t) ∧
        p.phrase = shown.phrase := by
  have expected : ExpectsRendering fun _ => True := ⟨trivial, fun _ _ => trivial⟩
  unfold phraseUnion at h
  obtain ⟨merged, u, hmerged, h⟩ := exec_bind_ok h
  obtain ⟨concrete, v, (hconcrete : (render.concrete o.display merged.types).exec u = _), h⟩ :=
    exec_bind_ok h
  rw [exec_get_bind] at h
  have hend : ∀ {shown : Phrase} {w : Session}, (if members.length > 1 then do
      return Phrasing.annotated shown (ty.text (← Work.table)) o
    else return Phrasing.plain shown : Work Phrasing).exec w = (.ok p, t) →
      p.phrase = shown ∧ t = w := by
    intro shown w h
    split_ifs at h
    · rw [exec_table_bind] at h
      obtain ⟨hp, rfl⟩ := Prod.mk.inj h
      exact ⟨(congrArg Phrasing.phrase (Except.ok.inj hp)).symm, rfl⟩
    · obtain ⟨hp, rfl⟩ := Prod.mk.inj h
      exact ⟨(congrArg Phrasing.phrase (Except.ok.inj hp)).symm, rfl⟩
  -- up to here, members were only compared and tried
  have hmerge := (DistinctTypes.ofTypes_composed expected hrender steps members).undisturbed s
  have hmergeQuiet := DistinctTypes.ofTypes_quiet hrender steps members s
  have htry := (Renderer.concrete_composed hrender o.display merged.types).undisturbed u
  have htryQuiet := Renderer.concrete_quiet hrender o.display merged.types u
  rw [hmerged] at hmerge hmergeQuiet
  rw [hconcrete] at htry htryQuiet
  have himports : v.imports = s.imports := htryQuiet.trans hmergeQuiet
  dsimp only at h
  cases hshown : shownMember (o.policy.getD v.policy) concrete with
  | none =>
      rw [hshown] at h
      obtain ⟨hp, rfl⟩ := hend h
      exact Or.inl ⟨hp, himports⟩
  | some member =>
      rw [hshown] at h
      obtain ⟨shown, w, hmember, hrest⟩ := exec_bind_ok h
      obtain ⟨hp, rfl⟩ := hend hrest
      have hkept : member ∈ merged.types := mem_of_filterM hconcrete (mem_of_shownMember hshown)
      obtain ⟨m, hm, parts, hparts, hpart⟩ := DistinctTypes.mem_types_ofTypes hrender hmerged hkept
      refine Or.inr ⟨member, parts, v, shown, ⟨m, hm, hparts⟩, hpart, ?_, himports, hmember, hp⟩
      exact ⟨hmerge.toBalanced.trans htry.toBalanced, htry.position.trans hmerge.position⟩

/-! ## The imports of a rendered type -/

/-- **Only what is written is imported.**  Keys, distinct types and whatever is done in a detached
computation, at any depth, leave the imports of the run as they are.  A type that is rendered outside
detached computations, while a library is being written, is the text of a phrase whose names are the
flat names of declarations.  It adds to the imports those of that library and the libraries that own
a named declaration, and no other, after those that were there.  A union mentions what one of its
components does, and nothing if it is shown as the untyped type. -/
theorem render_imports (s : Session) {writer : Nat} (hwriter : s.current = some writer) :
    (∀ depth ty, (((renderWithin depth).key ty).exec s).2.imports = s.imports) ∧
    (∀ depth steps (d : DistinctTypes) ty,
      ((d.add (renderWithin depth) steps ty).exec s).2.imports = s.imports) ∧
    (∀ (α : Type) (fails : Failure → Prop) (w : Work α), w.Composed fails Session.Change →
      ((Work.detached w).exec s).2.imports = s.imports ∧
      (s.detachment ≠ 0 → (w.exec s).2.imports = s.imports)) ∧
    (s.detachment = 0 → ∀ depth ty o r t, (renderWithin depth ty o).exec s = (.ok r, t) →
      ∃ p, (phraseWithin depth ty o).exec s = (.ok p, t) ∧ p.erase = r ∧
        (∀ citation ∈ p.phrase.citations, ∃ symbol, t.table.get? citation.1 = some symbol ∧
          symbol.kind.isEmitted = true ∧ t.flatName symbol = some citation.2) ∧
        s.imports <+: t.imports ∧
        (∀ edge, edge ∈ t.imports ↔ edge ∈ s.imports ∨ edge.1 = writer ∧ edge.2 ≠ writer ∧
          ∃ citation ∈ p.phrase.citations, t.Owns edge.2 citation)) ∧
    ∀ depth ty members o p t, ty = .union members ∨ ty = .intersection members →
      (phraseWithin (depth + 1) ty o).exec s = (.ok p, t) →
        (p.phrase = [.code untypedText] ∧ t.imports = s.imports) ∨
        ∃ member parts u shown,
          (∃ m ∈ members, components s.table s.expanding depth m = some parts) ∧ member ∈ parts ∧
          s.Undisturbed u ∧ u.imports = s.imports ∧
          (phraseWithin depth member o.display).exec u = (.ok shown, t) ∧
          p.phrase = shown.phrase := by
  have expected : ExpectsRendering fun _ => True := ⟨trivial, fun _ _ => trivial⟩
  have hrender : ∀ depth, (renderWithin depth).Composed (fun _ => True) Session.NoChange :=
    fun depth => renderWithin_composed expected depth
  refine ⟨?key, ?add, ?detached, ?written, ?union⟩
  case key => exact fun depth ty => (hrender depth).key_quiet ty s
  case add => exact fun depth steps d ty => DistinctTypes.add_quiet (hrender depth) steps d ty s
  case detached =>
    exact fun α fails w hw => ⟨Quiet.detached hw s, fun hs => hw.detached_imports hs⟩
  case written =>
    intro hattached depth ty o r t hrun
    have herases := phraseWithin_erases depth ty o s
    rw [hrun] at herases
    rcases hphrase : (phraseWithin depth ty o).exec s with ⟨failure | p, u⟩
    · rw [hphrase] at herases
      cases herases
    · rw [hphrase] at herases
      obtain ⟨hr, rfl⟩ := Prod.mk.inj herases
      have hgains := phraseWithin_gains depth s [] ty o s (.refl s) p t hphrase
      have hbalanced := (hrender depth ty o).undisturbed s
      rw [hrun] at hbalanced
      refine ⟨p, rfl, (Except.ok.inj hr).symm, hgains.named, hbalanced.imports, fun edge => ?_⟩
      rw [hgains.imports, Session.Needs, hgains.detachment, hgains.current, hattached, hwriter]
      refine or_congr_right ⟨?_, ?_⟩
      · rintro ⟨-, hcurrent, hne, hcited⟩
        obtain rfl := Option.some.inj hcurrent
        exact ⟨rfl, fun h => hne h.symm, hcited⟩
      · rintro ⟨rfl, hne, hcited⟩
        exact ⟨rfl, rfl, fun h => hne h.symm, hcited⟩
  case union =>
    rintro depth ty members o p t (rfl | rfl) hrun
    · exact phraseUnion_shows (hrender depth) hrun
    · exact phraseUnion_shows (hrender depth) hrun

/-- A union of classes of two other libraries, shown as the first of them.  Both names were asked
for, and only the library of the first one is imported. -/
theorem render_imports_shown_member :
    let symbol (name : String) (file : Nat) : Symbol :=
      { name, kind := .klass, file, path := ⟨["m", name], .type⟩ }
    let s : Session := { Session.start ⟨#[symbol "A" 1, symbol "B" 2]⟩ .batch .firstConcrete with
      libraries := #[.withCoreNames 0 "m", .withCoreNames 1 "a", .withCoreNames 2 "b"]
      assignments := [(0, 0), (1, 1), (2, 2)]
      current := some 0 }
    let r : Rendered := ⟨"A", some "null|A|B"⟩
    ∃ t, (renderWithin 4 (.union [.primitive .null, .nominal 0 [], .nominal 1 []]) {}).exec s =
        (.ok r, t) ∧ t.imports = [(0, 1)] ∧
      ∃ p : Phrasing, p.erase = r ∧ ∀ edge, edge ∈ t.imports ↔
        edge ∈ s.imports ∨ edge.1 = 0 ∧ edge.2 ≠ 0 ∧
          ∃ citation ∈ p.phrase.citations, t.Owns edge.2 citation := by
  intro symbol s r
  have hrun : (renderWithin 4 (.union [.primitive .null, .nominal 0 [], .nominal 1 []]) {}).exec s =
      (.ok r, _) := Prod.ext (by decide +kernel) rfl
  obtain ⟨p, -, herase, -, -, himports⟩ := (render_imports s rfl).2.2.2.1 rfl 4 _ {} r _ hrun
  exact ⟨_, hrun, by decide +kernel, p, herase, himports⟩

end Interop
