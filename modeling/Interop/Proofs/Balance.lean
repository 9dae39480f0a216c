import Interop.Proofs.Operations

/-!
# Sessions are left balanced

Rendering opens scopes, marks aliases as being expanded and detaches computations, each time from
within another rendering, and a failure may end it anywhere.  Whatever happens inside, every such
change is undone, and what lasts is only added: names, imports and diagnostics.

* `Library.Grows` — a library in which more names are in use.
* `Session.Balanced` — a session with the same scopes, aliases, libraries and so on, to which only
  names, imports and diagnostics have been added.
* **`Work.Composed.balanced`** — every computation that makes no lasting change but to the place of
  diagnostics leaves a session balanced, and without that change leaves the place too.
* **`rendering_balanced`** — so do rendering, keys, distinct types, parameter lists and overloads.
-/

namespace Interop

/-- A library in which more names are in use. -/
structure Library.Grows (a b : Library) : Prop where
  id : b.id = a.id
  name : b.name = a.name
  used : a.used <+: b.used

namespace Library.Grows

variable {a b c : Library}

lemma refl (a : Library) : a.Grows a :=
  ⟨rfl, rfl, List.prefix_rfl⟩

lemma trans (h : a.Grows b) (k : b.Grows c) : a.Grows c :=
  ⟨k.id.trans h.id, k.name.trans h.name, h.used.trans k.used⟩

lemma insert (a : Library) (name : String) : a.Grows (a.insert name) := by
  unfold Library.insert
  split_ifs
  · exact refl a
  · exact ⟨rfl, rfl, List.prefix_append _ _⟩

/-- A library grows by the name that it gives. -/
lemma allocate (registry : Registry) (path : DeclPath) (a : Library) :
    a.Grows (registry.allocate path a).2.2 := by
  cases hrecord : registry.find? path with
  | some record => rw [Registry.allocate_of_find? hrecord]; exact refl a
  | none => rw [Registry.allocate_of_new hrecord]; exact insert a _

end Library.Grows

/-- **A session that is as before**, but for names, imports and diagnostics that were added, and the
place of the next diagnostic. -/
structure Session.Balanced (s t : Session) : Prop where
  table : t.table = s.table
  policy : t.policy = s.policy
  expanding : t.expanding = s.expanding
  scopes : t.scopes = s.scopes
  detachment : t.detachment = s.detachment
  current : t.current = s.current
  assignments : t.assignments = s.assignments
  /-- No library is added. -/
  size : t.libraries.size = s.libraries.size
  /-- A library has more names, at most. -/
  library : ∀ id lib, s.library? id = some lib → ∃ lib', t.library? id = some lib' ∧ lib.Grows lib'
  /-- Records stay as they are. -/
  records : s.registry.records <+: t.registry.records
  imports : s.imports <+: t.imports
  mode : t.log.mode = s.log.mode
  entries : s.log.entries <+: t.log.entries

/-- A balanced session whose place is that of before, too. -/
structure Session.Undisturbed (s t : Session) : Prop extends s.Balanced t where
  position : t.position = s.position

namespace Session.Balanced

variable {s t u : Session}

lemma refl (s : Session) : s.Balanced s :=
  ⟨rfl, rfl, rfl, rfl, rfl, rfl, rfl, rfl, fun _ lib h => ⟨lib, h, .refl lib⟩, List.prefix_rfl,
    List.prefix_rfl, rfl, List.prefix_rfl⟩

lemma trans (h : s.Balanced t) (k : t.Balanced u) : s.Balanced u where
  table := k.table.trans h.table
  policy := k.policy.trans h.policy
  expanding := k.expanding.trans h.expanding
  scopes := k.scopes.trans h.scopes
  detachment := k.detachment.trans h.detachment
  current := k.current.trans h.current
  assignments := k.assignments.trans h.assignments
  size := k.size.trans h.size
  library id lib hlib := by
    obtain ⟨lib', hlib', hgrows⟩ := h.library id lib hlib
    obtain ⟨lib'', hlib'', hgrows'⟩ := k.library id lib' hlib'
    exact ⟨lib'', hlib'', hgrows.trans hgrows'⟩
  records := h.records.trans k.records
  imports := h.imports.trans k.imports
  mode := k.mode.trans h.mode
  entries := h.entries.trans k.entries

/-- Every path keeps the name that it had. -/
lemma record (h : s.Balanced t) {path : DeclPath} {record : NameRecord}
    (hrecord : s.registry.find? path = some record) : t.registry.find? path = some record := by
  obtain ⟨more, hmore⟩ := h.records
  rw [Registry.find?, ← hmore, List.lookup_append]
  rw [Registry.find?] at hrecord
  rw [hrecord, Option.some_or]

end Session.Balanced

/-! ## The operations -/

/-- A log grows at its end. -/
lemma Log.prefix_add {log log' : Log} {d : Diagnostic} (h : log.add d = .ok log') :
    log.entries <+: log'.entries := by
  unfold add at h
  split_ifs at h
  · obtain rfl := Except.ok.inj h
    exact List.prefix_rfl
  · cases hmode : log.mode with
    | failFast => simp [hmode] at h
    | batch =>
        rw [hmode] at h
        obtain rfl := Except.ok.inj h
        exact List.prefix_append _ _

namespace Session

lemma imports_refer (s : Session) (library : Nat) : s.imports <+: (s.refer library).imports := by
  rw [Work.refer_eq]
  split_ifs
  · simp only [importsAfter]
    split
    · split_ifs
      · exact List.prefix_append _ _
      · exact List.prefix_rfl
    · exact List.prefix_rfl
  · exact List.prefix_rfl

lemma Balanced.refer (s : Session) (library : Nat) : s.Balanced (s.refer library) := by
  have himports := imports_refer s library
  rw [Work.refer_eq] at himports ⊢
  split_ifs at himports ⊢
  · exact { refl s with imports := himports }
  · exact refl s

lemma Balanced.report (s : Session) {d : Diagnostic} {log : Log} (h : s.log.add d = .ok log) :
    s.Balanced { s with log } :=
  { refl s with mode := Log.mode_add h, entries := Log.prefix_add h }

/-- A name that is given is one more name in its library, and one more record. -/
lemma Balanced.allocate (s : Session) (path : DeclPath) {library : Nat} {lib : Library}
    (hlib : s.library? library = some lib) :
    s.Balanced { s with registry := (s.registry.allocate path lib).2.1,
                        libraries := s.libraries.setIfInBounds library
                          (s.registry.allocate path lib).2.2 } := by
  refine { refl s with size := Array.size_setIfInBounds, library := ?_, records := ?_ }
  · intro id old hold
    rw [library?, Array.getElem?_setIfInBounds]
    split_ifs with hid hlt
    · subst hid
      obtain rfl : lib = old := Option.some.inj (hlib.symm.trans hold)
      exact ⟨_, rfl, Library.Grows.allocate _ _ _⟩
    · subst hid
      exact absurd (Array.getElem?_eq_some_iff.mp hlib).1 hlt
    · exact ⟨old, hold, .refl old⟩
  · cases hrecord : s.registry.find? path with
    | some record => simp only [Registry.allocate_of_find? hrecord, List.prefix_rfl]
    | none => simp only [Registry.allocate_of_new hrecord, List.prefix_append]

/-- **Every operation leaves a session balanced.**  What is done between a change and its undoing is
done to a session in which one stack is higher, and leaves it as high. -/
lemma balanced_kept {changes : (Session → Session) → Prop}
    (hchanges : ∀ change, changes change → ∀ s : Session, s.Balanced (change s)) :
    Work.Kept changes Balanced where
  refl := .refl
  trans := .trans
  modify := hchanges
  report s _ _ h := .report s h
  refer := .refer
  allocate s path _ _ h := .allocate s path h
  inScope _ _ _ h := { h with scopes := congrArg List.tail h.scopes }
  expanding _ _ _ h := { h with expanding := congrArg List.tail h.expanding }
  detached _ _ h := { h with detachment := congrArg Nat.pred h.detachment }

/-- Only a lasting change moves the place. -/
lemma position_kept : Work.Kept NoChange fun s t => t.position = s.position where
  refl _ := rfl
  trans h k := k.trans h
  modify _ h := h.elim
  report _ _ _ _ := rfl
  refer s library := by
    rw [Work.refer_eq]
    split_ifs <;> rfl
  allocate _ _ _ _ _ := rfl
  inScope _ _ _ h := h
  expanding _ _ _ h := h
  detached _ _ h := h

end Session

section

variable {α : Type} {fails : Failure → Prop} {w : Work α}

/-- **What moves at most the place of diagnostics leaves a session balanced**, also when it fails. -/
theorem Work.Composed.balanced (h : w.Composed fails Session.ChangesPlace) (s : Session) :
    s.Balanced (w.exec s).2 := by
  refine h.kept (Session.balanced_kept fun change hchange s => ?_) s
  obtain ⟨span, rfl⟩ := hchange
  exact { Session.Balanced.refl s with }

/-- **What makes no lasting change leaves the place of diagnostics, too.** -/
theorem Work.Composed.undisturbed (h : w.Composed fails Session.NoChange) (s : Session) :
    s.Undisturbed (w.exec s).2 where
  toBalanced := h.kept (Session.balanced_kept fun _ hchange => hchange.elim) s
  position := h.kept Session.position_kept s

end

/-- **Rendering and merging leave every session balanced**, whether they succeed or fail and wherever
they fail: the aliases being expanded, the scopes, the detachment, the library being written, the
files and the libraries are those of before, no record has changed, and names in use, imports and
diagnostics are only added.  Merging overloads alone moves the place of diagnostics. -/
theorem rendering_balanced (s : Session) :
    (∀ depth ty o, s.Undisturbed ((renderWithin depth ty o).exec s).2) ∧
    (∀ depth ty, s.Undisturbed (((renderWithin depth).key ty).exec s).2) ∧
    (∀ depth steps (d : DistinctTypes) ty,
      s.Undisturbed ((d.add (renderWithin depth) steps ty).exec s).2) ∧
    (∀ params, s.Undisturbed ((Slots.ofParams params).exec s).2) ∧
    (∀ slots params, s.Undisturbed ((Slots.foldIn slots params).exec s).2) ∧
    ∀ members, s.Balanced ((mergeMembers members).exec s).2 := by
  have expected : Work.ExpectsRendering fun _ => True := ⟨trivial, fun _ _ => trivial⟩
  have hrender : ∀ depth, (renderWithin depth).Composed (fun _ => True) Session.NoChange :=
    fun depth => renderWithin_composed expected depth
  refine ⟨?render, ?key, ?add, ?ofParams, ?foldIn, ?members⟩
  case render => exact fun depth ty o => (hrender depth ty o).undisturbed s
  case key => exact fun depth ty => ((hrender depth).key ty).undisturbed s
  case add =>
    exact fun depth steps d ty =>
      (DistinctTypes.add_composed expected (hrender depth) steps d ty).undisturbed s
  case ofParams => exact fun params => (Slots.ofParams_composed expected params).undisturbed s
  case foldIn =>
    exact fun slots params => (Slots.foldIn_composed expected slots params).undisturbed s
  case members => exact fun members => (mergeMembers_composed members).balanced s

end Interop
