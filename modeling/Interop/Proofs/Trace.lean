import Interop.Proofs.Naming
import Interop.Proofs.Work

/-!
# What a computation does to a session

Rendering types and writing declarations touch a session in three ways that last: they report
diagnostics, they note imports, and they move the place that diagnostics point to.  Scopes, the
aliases being expanded and detached computations are undone, and no name is given, since all names
were given before.  This file makes that a definition and proves that it composes.

* `Session.Step`, `Trace` — what is done, in order, and how it ends; `Trace.replay` does it.
* `Session.view` — a session without its diagnostics and imports, which are only written.
* `Session.Settled` — all declarations that can be written have their names.  The parameter `may`
  says which failures are to be expected.
* **`Work.Traced`** — a computation does what a trace says, and the trace depends on nothing but the
  view of the session.  The rules `Work.Traced.bind`, `Work.Traced.mapM`, … build traces of
  computations from those of their parts.
-/

namespace Interop

/-! ## The log -/

namespace Log

variable {log log' : Log} {d : Diagnostic}

lemma mode_add (h : log.add d = .ok log') : log'.mode = log.mode := by
  unfold add at h
  split_ifs at h
  · obtain rfl := Except.ok.inj h
    rfl
  · cases hmode : log.mode with
    | failFast => simp [hmode] at h
    | batch =>
        rw [hmode] at h
        obtain rfl := Except.ok.inj h
        rfl

/-- A diagnostic is refused only where nothing may be reported. -/
lemma add_error {failure : Failure} (h : log.add d = .error failure) :
    log.mode = .failFast ∧ failure = .aborted d := by
  unfold add at h
  split_ifs at h
  cases hmode : log.mode with
  | failFast =>
      rw [hmode] at h
      exact ⟨rfl, (Except.error.inj h).symm⟩
  | batch => simp [hmode] at h

/-- A diagnostic that is in the log is added again without effect. -/
lemma add_of_mem (h : d ∈ log.entries) : log.add d = .ok log :=
  if_pos h

/-- What is added is there, with all that was. -/
lemma entries_add (h : log.add d = .ok log') : d ∈ log'.entries ∧ log.entries ⊆ log'.entries := by
  unfold add at h
  split_ifs at h with hmem
  · obtain rfl := Except.ok.inj h
    exact ⟨hmem, List.Subset.refl _⟩
  · cases hmode : log.mode with
    | failFast => simp [hmode] at h
    | batch =>
        rw [hmode] at h
        obtain rfl := Except.ok.inj h
        exact ⟨by simp, List.subset_append_left _ _⟩

/-- Whatever is added to a log was there or is the diagnostic. -/
lemma mem_add {e : Diagnostic} (h : log.add d = .ok log')
    (he : e ∈ log'.entries) : e ∈ log.entries ∨ e = d := by
  unfold add at h
  split_ifs at h
  · obtain rfl := Except.ok.inj h
    exact Or.inl he
  · cases hmode : log.mode with
    | failFast => simp [hmode] at h
    | batch =>
        rw [hmode] at h
        obtain rfl := Except.ok.inj h
        simpa using he

end Log

/-! ## Traces -/

/-- One thing that is done to a session and lasts. -/
inductive Session.Step where
  | report (diagnostic : Diagnostic)
  /-- The library being written refers to a library. -/
  | refer (library : Nat)
  | pointAt (span : Span)

/-- What a computation does, and how it ends if none of its reports ends it before. -/
structure Trace (α : Type) where
  steps : List Session.Step
  outcome : Except Failure α

namespace Session

/-- The imports of all libraries, once a library that is being written has referred to another. -/
def importsAfter (current : Option Nat) (library : Nat) (imports : List (Nat × Nat)) :
    List (Nat × Nat) :=
  match current with
  | some importer =>
    if importer != library && !imports.contains (importer, library) then
      imports ++ [(importer, library)]
    else imports
  | none => imports

/-- Do one step.  Only a report can fail. -/
def take (s : Session) : Step → Except Failure Session
  | .report d => (s.log.add d).map fun log => { s with log }
  | .refer library => .ok { s with imports := importsAfter s.current library s.imports }
  | .pointAt span => .ok (s.pointAt span)

/-- Do steps up to the first one that fails. -/
def replay : List Step → Session → Except Failure Unit × Session
  | [], s => (.ok (), s)
  | step :: rest, s =>
    match s.take step with
    | .ok t => replay rest t
    | .error failure => (.error failure, s)

/-- Do only those steps that move the place of diagnostics. -/
def follow : List Step → Session → Session
  | [], s => s
  | .pointAt span :: rest, s => follow rest (s.pointAt span)
  | .report _ :: rest, s | .refer _ :: rest, s => follow rest s

/-- A session in which everything that steps change is replaced. -/
def rewrite (s : Session) (log : Log) (imports : List (Nat × Nat)) (position : Span) : Session :=
  { s with log, imports, position }

/-- A session without what is only written. -/
def view (s : Session) : Session :=
  { s with log := { mode := .batch }, imports := [] }

/-- What a view keeps is the same in two sessions with the same view. -/
lemma congr_view {β : Type} (f : Session → β) (hf : ∀ s, f s.view = f s) {s t : Session}
    (h : s.view = t.view) : f s = f t := by
  rw [← hf s, h, hf t]

lemma replay_append (steps more : List Step) (s : Session) :
    s.replay (steps ++ more) = match s.replay steps with
      | (.ok _, t) => t.replay more
      | (.error failure, t) => (.error failure, t) := by
  induction steps generalizing s with
  | nil => rfl
  | cons step rest ih =>
      simp only [List.cons_append, replay]
      cases s.take step with
      | ok t => exact ih t
      | error failure => rfl

lemma follow_append (steps more : List Step) (s : Session) :
    s.follow (steps ++ more) = (s.follow steps).follow more := by
  induction steps generalizing s with
  | nil => rfl
  | cons step rest ih =>
      cases step <;> exact ih _

lemma view_follow (steps : List Step) (s : Session) :
    (s.follow steps).view = s.view.follow steps := by
  induction steps generalizing s with
  | nil => rfl
  | cons step rest ih =>
      cases step <;> exact ih _

lemma view_take {s t : Session} {step : Step} (h : s.take step = .ok t) :
    t.view = (s.follow [step]).view := by
  cases step with
  | report d =>
      simp only [take] at h
      cases hlog : s.log.add d with
      | error failure => simp [hlog, Except.map] at h
      | ok log =>
          rw [hlog] at h
          obtain rfl := Except.ok.inj h
          rfl
  | refer library =>
      obtain rfl := Except.ok.inj h
      rfl
  | pointAt span =>
      obtain rfl := Except.ok.inj h
      rfl

/-- As far as the view goes, steps that succeed do no more than move the place. -/
lemma view_replay {steps : List Step} {s t : Session} (h : s.replay steps = (.ok (), t)) :
    t.view = (s.follow steps).view := by
  induction steps generalizing s with
  | nil =>
      obtain rfl := (Prod.mk.inj h).2
      rfl
  | cons step rest ih =>
      simp only [replay] at h
      cases htake : s.take step with
      | error failure => simp [htake] at h
      | ok u =>
          rw [htake] at h
          have hcons : s.follow (step :: rest) = (s.follow [step]).follow rest :=
            follow_append [step] rest s
          rw [ih h, hcons, view_follow, view_take htake, ← view_follow]

end Session

/-- Do what a trace says. -/
def Trace.replay {α : Type} (t : Trace α) (s : Session) : Except Failure α × Session :=
  match s.replay t.steps with
  | (.ok _, s') => (t.outcome, s')
  | (.error failure, s') => (.error failure, s')

lemma Trace.replay_snd {α : Type} (t : Trace α) (s : Session) :
    (t.replay s).2 = (s.replay t.steps).2 := by
  simp only [Trace.replay]
  rcases s.replay t.steps with ⟨_ | _, u⟩ <;> rfl

/-! ## Settled sessions -/

/-- **Every declaration that can be written has its name.**  What cannot be helped, a declaration
whose file is in no library or that lacks what its kind needs, is among the failures to expect. -/
structure Session.Settled (may : Failure → Prop) (s : Session) : Prop where
  exhausted : may .exhausted
  foreign : ∀ id symbol, s.table.get? id = some symbol → symbol.kind.isEmitted = true →
    symbol.externalName = none → s.libraryOf? symbol.file = none →
      may (.structural symbol.span (.foreignFile symbol.path))
  named : ∀ id symbol library, s.table.get? id = some symbol → symbol.kind.isEmitted = true →
    symbol.externalName = none → symbol.hasLegalName = true →
      s.libraryOf? symbol.file = some library →
        (∃ lib, s.library? library = some lib) ∧
          ∃ record, s.registry.find? symbol.path = some record
  signature : ∀ id symbol, s.table.get? id = some symbol → symbol.kind = .function →
    symbol.callSignatures.isEmpty = true → may (.structural symbol.span (.noSignature symbol.name))
  type : ∀ id symbol, s.table.get? id = some symbol → symbol.kind = .variable →
    symbol.properties.isEmpty = true → may (.structural symbol.span (.noType symbol.name))

/-- Whether a session is settled depends on its table, names, libraries and files alone. -/
lemma Session.Settled.congr {may : Failure → Prop} {s t : Session} (h : s.Settled may)
    (table : t.table = s.table) (registry : t.registry = s.registry)
    (libraries : t.libraries = s.libraries) (assignments : t.assignments = s.assignments) :
    t.Settled may := by
  obtain ⟨h1, h2, h3, h4, h5⟩ := h
  constructor
  · exact h1
  · simpa only [Session.libraryOf?, table, assignments] using h2
  · simpa only [Session.libraryOf?, Session.library?, table, registry, libraries, assignments]
      using h3
  · simpa only [table] using h4
  · simpa only [table] using h5

lemma Session.Settled.enter {may : Failure → Prop} {s : Session} (h : s.Settled may)
    (library : Nat) : (s.enter library).Settled may :=
  h.congr rfl rfl rfl rfl

/-- Moving the place does not unsettle a session. -/
lemma Session.Settled.follow {may : Failure → Prop} (steps : List Session.Step) :
    ∀ {s : Session}, s.Settled may → (s.follow steps).Settled may := by
  induction steps with
  | nil =>
      intro s h
      exact h
  | cons step rest ih =>
      intro s h
      cases step with
      | pointAt span => exact ih (s := s.pointAt span) (h.congr rfl rfl rfl rfl)
      | report d => exact ih (s := s) h
      | refer library => exact ih (s := s) h

lemma Session.table_follow (steps : List Session.Step) (s : Session) :
    (s.follow steps).table = s.table := by
  induction steps generalizing s with
  | nil => rfl
  | cons step rest ih =>
      cases step with
      | pointAt span => exact ih (s.pointAt span)
      | report d => exact ih s
      | refer library => exact ih s

/-! ## Traced computations -/

namespace Work

variable {α β : Type} {may : Failure → Prop} {table : SymbolTable}

/-- **A computation that leaves a trace.**  In a settled session over the table it does what some
trace says, and in every session with the same view it does what the same trace says.  A trace that
fails does so in a way that is to be expected. -/
def Traced (may : Failure → Prop) (table : SymbolTable) (w : Work α) : Prop :=
  ∀ s : Session, s.Settled may → s.table = table →
    ∃ t : Trace α, (∀ failure, t.outcome = .error failure → may failure) ∧
      ∀ s' : Session, s'.view = s.view → w.exec s' = t.replay s'

namespace Traced

lemma pure (a : α) : Traced may table (Pure.pure a) := by
  intro s _ _
  refine ⟨⟨[], .ok a⟩, ?_, fun s' _ => rfl⟩
  intro failure h
  cases h

/-- A failure that settled sessions have to expect. -/
lemma throw {failure : Failure} (h : ∀ s : Session, s.Settled may → s.table = table → may failure) :
    Traced may table (throw failure : Work α) := by
  intro s hs ht
  refine ⟨⟨[], .error failure⟩, ?_, fun s' _ => rfl⟩
  intro f hf
  obtain rfl := Except.error.inj hf
  exact h s hs ht

lemma exhausted : Traced may table (MonadExcept.throw Failure.exhausted : Work α) :=
  throw fun _ hs _ => hs.exhausted

/-- **Composition.**  The traces of two computations, one after the other, are a trace of both. -/
theorem bind {w : Work α} {k : α → Work β} (hw : Traced may table w)
    (hk : ∀ a, Traced may table (k a)) : Traced may table (w >>= k) := by
  intro s hs ht
  obtain ⟨t, hfail, hrun⟩ := hw s hs ht
  cases hout : t.outcome with
  | error failure =>
      refine ⟨⟨t.steps, .error failure⟩, ?_, ?_⟩
      · intro f hf
        obtain rfl := Except.error.inj hf
        exact hfail _ hout
      · intro s' hs'
        rw [exec_bind, hrun s' hs']
        simp only [Trace.replay, hout]
        rcases s'.replay t.steps with ⟨_ | _, _⟩ <;> rfl
  | ok a =>
      -- the second trace is that of the session in which the first has moved the place
      obtain ⟨u, hufail, hurun⟩ := hk a (s.follow t.steps) (hs.follow t.steps)
        ((Session.table_follow t.steps s).trans ht)
      refine ⟨⟨t.steps ++ u.steps, u.outcome⟩, hufail, ?_⟩
      intro s' hs'
      rw [exec_bind, hrun s' hs']
      simp only [Trace.replay, hout, Session.replay_append]
      rcases hreplay : s'.replay t.steps with ⟨_ | _, s''⟩
      · rfl
      · have hview : s''.view = (s.follow t.steps).view := by
          rw [Session.view_replay hreplay, Session.view_follow, hs', Session.view_follow]
        exact hurun s'' hview

/-- What is read of a session is part of its view. -/
lemma get_bind {k : Session → Work α} (hview : ∀ s, k s.view = k s)
    (hk : ∀ s, Traced may table (k s)) : Traced may table (get >>= k) := by
  intro s hs ht
  obtain ⟨t, hfail, hrun⟩ := hk s s hs ht
  refine ⟨t, hfail, ?_⟩
  intro s' hs'
  rw [exec_get_bind, ← hview s', hs', hview s]
  exact hrun s' hs'

lemma table_bind {k : SymbolTable → Work α} (hk : Traced may table (k table)) :
    Traced may table (Work.table >>= k) := by
  intro s hs ht
  obtain ⟨t, hfail, hrun⟩ := hk s hs ht
  refine ⟨t, hfail, ?_⟩
  intro s' hs'
  have htable : s'.table = table := (Session.congr_view (·.table) (fun _ => rfl) hs').trans ht
  rw [exec_table_bind, htable]
  exact hrun s' hs'

lemma pointAt (span : Span) : Traced may table (modify (·.pointAt span)) := by
  intro s _ _
  refine ⟨⟨[.pointAt span], .ok ()⟩, ?_, fun s' _ => rfl⟩
  intro failure h
  cases h

lemma report (d : Diagnostic) : Traced may table (Work.report d) := by
  intro s _ _
  refine ⟨⟨[.report d], .ok ()⟩, ?_, ?_⟩
  · intro failure h
    cases h
  · intro s' _
    rw [exec_report]
    simp only [Trace.replay, Session.replay, Session.take]
    cases s'.log.add d <;> rfl

lemma reportUnsupported (construct : String) :
    Traced may table (Work.reportUnsupported construct) :=
  get_bind (fun _ => rfl) fun _ => report _

lemma reportUnresolved (name : String) : Traced may table (Work.reportUnresolved name) :=
  get_bind (fun _ => rfl) fun _ => report _

end Traced

/-! ### Computations between a change and its undoing -/

/-- A change that is undone and leaves nothing in a trace, since neither steps nor names depend on
it. -/
structure Aside (enter leave : Session → Session) : Prop where
  undone : ∀ s, leave (enter s) = s
  names : ∀ s, (enter s).table = s.table ∧ (enter s).registry = s.registry ∧
    (enter s).libraries = s.libraries ∧ (enter s).assignments = s.assignments
  written : ∀ s, (enter s).log = s.log ∧ (enter s).imports = s.imports ∧
    (enter s).position = s.position ∧ (enter s).current = s.current
  commutes : ∀ s log imports position,
    enter (s.rewrite log imports position) = (enter s).rewrite log imports position

namespace Aside

lemma pushScope (names : List String) : Aside (·.pushScope names) Session.popScope :=
  ⟨fun _ => rfl, fun _ => ⟨rfl, rfl, rfl, rfl⟩, fun _ => ⟨rfl, rfl, rfl, rfl⟩, fun _ _ _ _ => rfl⟩

lemma pushAlias (id : Nat) : Aside (·.pushAlias id) Session.popAlias :=
  ⟨fun _ => rfl, fun _ => ⟨rfl, rfl, rfl, rfl⟩, fun _ => ⟨rfl, rfl, rfl, rfl⟩, fun _ _ _ _ => rfl⟩

lemma detach : Aside Session.detach Session.attach :=
  ⟨fun _ => rfl, fun _ => ⟨rfl, rfl, rfl, rfl⟩, fun _ => ⟨rfl, rfl, rfl, rfl⟩, fun _ _ _ _ => rfl⟩

variable {enter leave : Session → Session}

lemma view (h : Aside enter leave) (s : Session) : (enter s).view = enter s.view := by
  show (enter s).rewrite { mode := .batch } [] (enter s).position =
    enter (s.rewrite { mode := .batch } [] s.position)
  rw [(h.written s).2.2.1, h.commutes]

lemma take (h : Aside enter leave) (s : Session) (step : Session.Step) :
    (enter s).take step = (s.take step).map enter := by
  obtain ⟨hlog, himports, hposition, hcurrent⟩ := h.written s
  cases step with
  | report d =>
      simp only [Session.take, hlog]
      cases s.log.add d with
      | error failure => rfl
      | ok log =>
          show Except.ok ((enter s).rewrite log (enter s).imports (enter s).position) =
            Except.ok (enter (s.rewrite log s.imports s.position))
          rw [himports, hposition, h.commutes]
  | refer library =>
      show Except.ok ((enter s).rewrite (enter s).log
          (Session.importsAfter (enter s).current library (enter s).imports) (enter s).position) =
        Except.ok (enter (s.rewrite s.log (Session.importsAfter s.current library s.imports)
          s.position))
      rw [hlog, himports, hposition, hcurrent, h.commutes]
  | pointAt span =>
      show Except.ok ((enter s).rewrite (enter s).log (enter s).imports span) =
        Except.ok (enter (s.rewrite s.log s.imports span))
      rw [hlog, himports, h.commutes]

lemma replay (h : Aside enter leave) (steps : List Session.Step) (s : Session) :
    (enter s).replay steps = ((s.replay steps).1, enter (s.replay steps).2) := by
  induction steps generalizing s with
  | nil => rfl
  | cons step rest ih =>
      simp only [Session.replay, h.take]
      cases s.take step with
      | ok t => exact ih t
      | error failure => rfl

end Aside

namespace Traced

/-- Inside a change that leaves nothing in a trace, a trace stays the same. -/
lemma within {enter leave : Session → Session} (h : Aside enter leave) {w : Work α}
    (hw : Traced may table w) : Traced may table (Work.within enter leave w) := by
  intro s hs ht
  obtain ⟨htable, hregistry, hlibraries, hassignments⟩ := h.names s
  obtain ⟨t, hfail, hrun⟩ := hw (enter s) (hs.congr htable hregistry hlibraries hassignments)
    (htable.trans ht)
  refine ⟨t, hfail, ?_⟩
  intro s' hs'
  rw [exec_within, hrun (enter s') (by rw [h.view, hs', h.view])]
  simp only [Trace.replay, h.replay]
  rcases s'.replay t.steps with ⟨_ | _, u⟩ <;> simp only [h.undone]

lemma inScope (names : List String) {w : Work α} (hw : Traced may table w) :
    Traced may table (Work.inScope names w) :=
  within (.pushScope names) hw

lemma expanding (id : Nat) {w : Work α} (hw : Traced may table w) :
    Traced may table (Work.expanding id w) :=
  within (.pushAlias id) hw

lemma detached {w : Work α} (hw : Traced may table w) : Traced may table (Work.detached w) :=
  within .detach hw

end Traced

/-! ### Names -/

lemma exec_allocate {s : Session} {library : Nat} {lib : Library}
    (hlib : s.library? library = some lib) (path : DeclPath) :
    (allocate path library).exec s =
      (.ok (s.registry.allocate path lib).1,
        { s with registry := (s.registry.allocate path lib).2.1,
                 libraries := s.libraries.setIfInBounds library
                   (s.registry.allocate path lib).2.2 }) := by
  unfold allocate
  rw [exec_get_bind]
  simp only [hlib]
  rfl

lemma exec_allocate_missing {s : Session} {library : Nat} (hlib : s.library? library = none)
    (path : DeclPath) : (allocate path library).exec s =
      (.error (.structural s.position (.missingLibrary library path)), s) := by
  unfold allocate
  rw [exec_get_bind]
  simp only [hlib]
  rfl

/-- A path that has a name keeps it, and nothing is done to the session. -/
lemma exec_allocate_of_find? {s : Session} {path : DeclPath} {library : Nat} {lib : Library}
    {record : NameRecord} (hlib : s.library? library = some lib)
    (hrecord : s.registry.find? path = some record) :
    (allocate path library).exec s = (.ok record.name, s) := by
  have hset : s.libraries.setIfInBounds library lib = s.libraries := by
    obtain ⟨hlt, hget⟩ := Array.getElem?_eq_some_iff.mp hlib
    apply Array.ext_getElem?
    intro i
    rw [Array.getElem?_setIfInBounds]
    split_ifs with h
    · rw [← h, ← hget]
      exact (Array.getElem?_eq_getElem hlt).symm
    · rfl
  rw [exec_allocate hlib, Registry.allocate_of_find? hrecord, hset]

lemma refer_eq (s : Session) (library : Nat) : s.refer library =
    if s.detachment = 0 then
      { s with imports := Session.importsAfter s.current library s.imports }
    else s := by
  obtain ⟨table, policy, log, registry, libraries, assignments, current, imports, position, scopes,
    expanding, detachment⟩ := s
  simp only [Session.refer, Session.importsAfter, Session.addImport]
  cases current with
  | none => split_ifs <;> rfl
  | some importer =>
      by_cases hd : detachment = 0
      · by_cases hi : importer = library
        · simp [hd, hi]
        · cases hc : imports.contains (importer, library) <;> simp_all
      · simp [hd]

lemma exec_nameOf_external {s : Session} {id : Nat} {symbol : Symbol} {target : String}
    (hid : s.table.get? id = some symbol) (hexternal : symbol.externalName = some target) :
    (nameOf id).exec s = (.ok (some target), s) := by
  unfold nameOf
  rw [exec_get_bind]
  simp only [hid, hexternal]
  rfl

section

variable {s : Session} {id : Nat} {symbol : Symbol} (hid : s.table.get? id = some symbol)
  (hexternal : symbol.externalName = none)
include hid hexternal

lemma exec_nameOf_foreign (hfile : s.libraryOf? symbol.file = none) :
    (nameOf id).exec s = (.error (.structural symbol.span (.foreignFile symbol.path)), s) := by
  unfold nameOf
  rw [exec_get_bind]
  simp only [hid, hexternal, hfile]
  rfl

variable {library : Nat} (hfile : s.libraryOf? symbol.file = some library)
include hfile

lemma exec_nameOf_illegal (hlegal : symbol.hasLegalName = false) :
    (nameOf id).exec s = (.ok none, s) := by
  unfold nameOf
  rw [exec_get_bind]
  simp only [hid, hexternal, hfile, hlegal, Bool.false_eq_true, if_false]
  rfl

/-- The name of a declaration that can be written was given before.  Asking for it only notes that
its library is referred to. -/
lemma exec_nameOf {lib : Library} {record : NameRecord} (hlegal : symbol.hasLegalName = true)
    (hlib : s.library? library = some lib) (hrecord : s.registry.find? symbol.path = some record) :
    (nameOf id).exec s = (.ok (some record.name), s.refer library) := by
  have hkept : (s.refer library).libraries = s.libraries ∧
      (s.refer library).registry = s.registry := by
    rw [refer_eq]
    split_ifs <;> exact ⟨rfl, rfl⟩
  have hlib' : (s.refer library).library? library = some lib := by
    rw [Session.library?, hkept.1]
    exact hlib
  unfold nameOf
  rw [exec_get_bind]
  simp only [hid, hexternal, hfile, hlegal, if_true]
  rw [exec_bind, exec_modify]
  simp only [next]
  rw [exec_bind, exec_allocate_of_find? hlib' (hkept.2 ▸ hrecord)]
  rfl

end

namespace Traced

/-- Asking for a name leaves at most a reference to a library.  What can be named has a name. -/
lemma nameOf {id : Nat} {symbol : Symbol} (hid : table.get? id = some symbol)
    (hkind : symbol.kind.isEmitted = true) : Traced may table (Work.nameOf id) := by
  intro s hs ht
  subst ht
  have hget : ∀ s' : Session, s'.view = s.view → s'.table.get? id = some symbol := fun s' hs' =>
    (Session.congr_view (·.table.get? id) (fun _ => rfl) hs').trans hid
  have hassigned : ∀ s' : Session, s'.view = s.view →
      s'.libraryOf? symbol.file = s.libraryOf? symbol.file := fun s' hs' =>
    Session.congr_view (·.libraryOf? symbol.file) (fun _ => rfl) hs'
  cases hexternal : symbol.externalName with
  | some target =>
      refine ⟨⟨[], .ok (some target)⟩, by simp, fun s' hs' => ?_⟩
      exact exec_nameOf_external (hget s' hs') hexternal
  | none =>
      cases hfile : s.libraryOf? symbol.file with
      | none =>
          refine ⟨⟨[], .error (.structural symbol.span (.foreignFile symbol.path))⟩, ?_,
            fun s' hs' => ?_⟩
          · intro failure h
            obtain rfl := Except.error.inj h
            exact hs.foreign id symbol hid hkind hexternal hfile
          · exact exec_nameOf_foreign (hget s' hs') hexternal ((hassigned s' hs').trans hfile)
      | some library =>
          cases hlegal : symbol.hasLegalName with
          | false =>
              refine ⟨⟨[], .ok none⟩, by simp, fun s' hs' => ?_⟩
              exact exec_nameOf_illegal (hget s' hs') hexternal
                ((hassigned s' hs').trans hfile) hlegal
          | true =>
              obtain ⟨⟨lib, hlib⟩, record, hrecord⟩ :=
                hs.named id symbol library hid hkind hexternal hlegal hfile
              refine ⟨⟨if s.detachment = 0 then [.refer library] else [], .ok (some record.name)⟩,
                by simp, fun s' hs' => ?_⟩
              have hdetached : s'.detachment = s.detachment :=
                Session.congr_view (·.detachment) (fun _ => rfl) hs'
              have hlib' : s'.library? library = some lib :=
                (Session.congr_view (·.library? library) (fun _ => rfl) hs').trans hlib
              have hrecord' : s'.registry.find? symbol.path = some record :=
                (Session.congr_view (·.registry.find? symbol.path) (fun _ => rfl) hs').trans hrecord
              rw [exec_nameOf (hget s' hs') hexternal ((hassigned s' hs').trans hfile) hlegal hlib'
                hrecord', refer_eq, ← hdetached]
              split_ifs <;> rfl

/-! ### Lists -/

lemma mapM {f : α → Work β} : ∀ {xs : List α}, (∀ x ∈ xs, Traced may table (f x)) →
    Traced may table (xs.mapM f)
  | [], _ => by
      rw [List.mapM_nil]
      exact pure []
  | x :: xs, h => by
      rw [List.mapM_cons]
      refine bind (h x (by simp)) fun b => ?_
      exact bind (mapM fun y hy => h y (by simp [hy])) fun bs => pure (b :: bs)

lemma forM {f : α → Work PUnit} : ∀ {xs : List α}, (∀ x ∈ xs, Traced may table (f x)) →
    Traced may table (xs.forM f)
  | [], _ => pure PUnit.unit
  | x :: xs, h => bind (h x (by simp)) fun _ => forM fun y hy => h y (by simp [hy])

lemma foldlM {f : β → α → Work β} : ∀ {xs : List α} (b : β),
    (∀ b, ∀ x ∈ xs, Traced may table (f b x)) → Traced may table (xs.foldlM f b)
  | [], b, _ => pure b
  | x :: xs, b, h => by
      rw [List.foldlM_cons]
      exact bind (h b x (by simp)) fun b' => foldlM b' fun b y hy => h b y (by simp [hy])

lemma filterM {f : α → Work Bool} {xs : List α} (h : ∀ x ∈ xs, Traced may table (f x)) :
    Traced may table (xs.filterM f) := by
  rw [filterM_eq_foldlM]
  exact bind (foldlM [] fun kept x hx => bind (h x hx) fun _ => pure _) fun _ => pure _

end Traced

end Work

end Interop
