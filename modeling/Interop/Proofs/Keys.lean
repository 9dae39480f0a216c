import Interop.Proofs.Allocation
import Interop.Proofs.Depth
import Interop.Proofs.Termination

/-!
# What a type is rendered as

Rendering takes a bound and may give names, report and refer to libraries on the way.  Where aliases
are not recursive, all names are given and diagnostics are collected, none of that matters: a type
is rendered as one and the same thing with every bound that is large enough, and in all sessions
that differ in no more than what was reported and referred to.

* `Session.Named` — all names are given.
* `Session.Like` — sessions that differ in nothing that texts depend on.
* `Session.Renders` — what a type is rendered as in all of them.
* **`Session.exists_renders`** — there is such a thing.
* `Session.Renders.key`, `Session.Renders.typeKey` — so keys are found, also with the bound of the
  program.
-/

namespace Interop

open Filter Relation Work

/-! ## Sessions -/

/-- **All names are given.**  What is rendered under its name, and is not declared elsewhere, is in
a file of some library, and has been given its name if it has a legal one. -/
structure Session.Named (s : Session) : Prop where
  owned : ∀ id symbol, s.table.get? id = some symbol → symbol.kind.isEmitted = true →
    symbol.externalName = none → ∃ library, s.libraryOf? symbol.file = some library
  given : ∀ id symbol library, s.table.get? id = some symbol → symbol.kind.isEmitted = true →
    symbol.externalName = none → symbol.hasLegalName = true →
      s.libraryOf? symbol.file = some library →
        (∃ lib, s.library? library = some lib) ∧
          ∃ record, s.registry.find? symbol.path = some record

/-- **Sessions that differ in nothing that texts depend on**: in what was reported and imported, in
the library that is being written, and in whether the text is written at all. -/
structure Session.Like (base s : Session) : Prop extends base.SameNames s where
  policy : s.policy = base.policy
  expanding : s.expanding = base.expanding
  scopes : s.scopes = base.scopes
  position : s.position = base.position
  mode : s.log.mode = base.log.mode

namespace Session

variable {base : Session}

/-- Where nothing but exhaustion is to be expected, as once a run is prepared, all names are given. -/
lemma Settled.allNamed {s : Session} (h : s.Settled (· = .exhausted)) : s.Named where
  owned id symbol hget hkind hexternal := by
    cases hfile : s.libraryOf? symbol.file with
    | some library => exact ⟨library, rfl⟩
    | none => cases h.foreign id symbol hget hkind hexternal hfile
  given := h.named

lemma Like.refl (s : Session) : s.Like s :=
  ⟨.refl s, rfl, rfl, rfl, rfl, rfl⟩

/-- Collecting sessions in which all names are given fail at no report and at no name. -/
lemma Named.steady (h : base.Named) :
    Steady base.table (fun s => base.SameNames s ∧ s.log.mode = .batch) fun _ => False where
  about _ hs := hs.1.table
  aside s _ _ _ hs := ⟨⟨hs.1.table, hs.1.registry, hs.1.libraries, hs.1.assignments⟩, hs.2⟩
  report d s hs := by
    rw [exec_report]
    cases hadd : s.log.add d with
    | ok log =>
        have hmode := (Log.mode_add hadd).trans hs.2
        exact ⟨⟨⟨hs.1.table, hs.1.registry, hs.1.libraries, hs.1.assignments⟩, hmode⟩,
          fun _ _ => trivial, fun _ hfails => by cases hfails⟩
    | error failure =>
        have hmode := (Log.add_error hadd).1.symm.trans hs.2
        cases hmode
  nameOf id symbol hget hkind s hs := by
    have hid : s.table.get? id = some symbol := hs.1.table ▸ hget
    cases hexternal : symbol.externalName with
    | some target =>
        rw [exec_nameOf_external hid hexternal]
        exact ⟨hs, fun _ _ => trivial, fun _ hfails => by cases hfails⟩
    | none =>
        obtain ⟨library, howned⟩ := h.owned id symbol hget hkind hexternal
        have hfile : s.libraryOf? symbol.file = some library := by
          rw [libraryOf?, hs.1.assignments]
          exact howned
        cases hlegal : symbol.hasLegalName with
        | false =>
            rw [exec_nameOf_illegal hid hexternal hfile hlegal]
            exact ⟨hs, fun _ _ => trivial, fun _ hfails => by cases hfails⟩
        | true =>
            obtain ⟨⟨lib, hlib⟩, record, hrecord⟩ :=
              h.given id symbol library hget hkind hexternal hlegal howned
            rw [← hs.1.registry] at hrecord
            rw [library?, ← hs.1.libraries] at hlib
            rw [exec_nameOf hid hexternal hfile hlegal hlib hrecord]
            refine ⟨?_, fun _ _ => trivial, fun _ hfails => by cases hfails⟩
            rw [refer_eq]
            split_ifs
            · exact ⟨⟨hs.1.table, hs.1.registry, hs.1.libraries, hs.1.assignments⟩, hs.2⟩
            · exact hs

/-- What was reported is all that one of two such sessions may not know of the other. -/
lemma Like.recalls {s t : Session} (hs : base.Like s) (ht : base.Like t)
    (hentries : s.log.entries ⊆ t.log.entries) : s.Recalls [] t where
  table := ht.table.trans hs.table.symm
  policy := ht.policy.trans hs.policy.symm
  assignments := ht.assignments.trans hs.assignments.symm
  expanding := ht.expanding.trans hs.expanding.symm
  position := ht.position.trans hs.position.symm
  mode := ht.mode.trans hs.mode.symm
  entries := hentries
  size := congrArg Array.size (ht.libraries.trans hs.libraries.symm)
  record path record hrecord := by
    rw [ht.registry, ← hs.registry]
    exact hrecord
  inScope name _ := by
    rw [inScope, inScope, ht.scopes, hs.scopes]

end Session

/-! ## One result -/

namespace Work

variable {α : Type} {base : Session} {w w' : Work α}

/-- What fails at no report and at no name, and makes no lasting change, keeps sessions alike. -/
lemma Yields.like {Q : α → Prop} (hbatch : base.log.mode = .batch)
    (hw : w.Yields (Session.Expanding (fun s => base.SameNames s ∧ s.log.mode = .batch)
      base.expanding) (fun _ => False) Q)
    (hcomposed : w.Composed (fun _ => True) Session.NoChange) :
    w.Yields base.Like (fun _ => False) Q := by
  intro s hs
  obtain ⟨⟨⟨hnames, hmode⟩, hexpanding⟩, hresult⟩ :=
    hw s ⟨⟨hs.toSameNames, hs.mode.trans hbatch⟩, hs.expanding⟩
  have hleft := hcomposed.undisturbed s
  exact ⟨⟨hnames, hleft.policy.trans hs.policy, hexpanding, hleft.scopes.trans hs.scopes,
    hleft.position.trans hs.position, hmode.trans hbatch.symm⟩, hresult⟩

/-- **What repeats itself and does not fail has one result in sessions that are alike**: the result
in a session in which all is known that was reported in two of them. -/
lemma Repeats.gives {Q : α → Prop} (hrepeats : w.Repeats base.table [] Q)
    (hlike : w.Yields base.Like (fun _ => False) fun _ => True) : ∃ a, w.Gives base.Like a := by
  have hruns : ∀ s, base.Like s → ∃ a t, w.exec s = (.ok a, t) ∧ base.Like t := by
    intro s hs
    obtain ⟨hkept, -, hfails⟩ := hlike s hs
    rcases hrun : w.exec s with ⟨failure | a, t⟩
    · rw [hrun] at hfails
      exact (hfails failure rfl).elim
    · rw [hrun] at hkept
      exact ⟨a, t, rfl, hkept⟩
  obtain ⟨a, t, hrun, ht⟩ := hruns base (.refl base)
  refine ⟨a, fun s hs => ?_⟩
  obtain ⟨b, u, hrun', hu⟩ := hruns s hs
  let both : Session := { t with log := ⟨t.log.mode, t.log.entries ++ u.log.entries⟩ }
  have hboth : base.Like both := { ht with }
  have hfirst := (hrepeats base a t rfl hrun).2.2 both
    (ht.recalls hboth (List.subset_append_left _ _))
  have hsecond := (hrepeats s b u hs.table hrun').2.2 both
    (hu.recalls hboth (List.subset_append_right _ _))
  obtain rfl := Except.ok.inj (hfirst.symm.trans hsecond)
  rw [hrun']
  exact ⟨hu, fun _ hout => (Except.ok.inj hout).symm, fun _ hout => by cases hout⟩

/-- What does the same unless it is exhausted has the same result. -/
lemma Gives.refines {I : Session → Prop} {a : α} (h : w.Gives I a) (hw : w.Refines w') :
    w'.Gives I a := by
  intro s hs
  rcases hw s with hexhausted | hsame
  · cases hexhausted.symm.trans (h.exec hs)
  · rw [hsame]
    exact h s hs

end Work

/-! ## Rendering -/

/-- **What a type is rendered as in all sessions that are alike**, with every bound that is large
enough. -/
def Session.Renders (base : Session) (ty : Ty) (o : RenderOptions) (r : Rendered) : Prop :=
  ∀ᶠ depth in atTop, (renderWithin depth ty o).Gives base.Like r

namespace Session

variable {base : Session} {ty : Ty} {o : RenderOptions} {r : Rendered}

lemma Renders.unique {r' : Rendered} (h : base.Renders ty o r) (h' : base.Renders ty o r') :
    r = r' := by
  obtain ⟨depth, hr, hr'⟩ := (h.and h').exists
  exact Except.ok.inj ((hr.exec (.refl base)).symm.trans (hr'.exec (.refl base)))

/-- **Everything is rendered as something**, where aliases are not recursive, all names are given
and diagnostics are collected. -/
theorem exists_renders (hacyclic : ∀ id, ¬ TransGen base.table.Uses id id) (hnamed : base.Named)
    (hbatch : base.log.mode = .batch) (ty : Ty) (ho : o.Plain) : ∃ r, base.Renders ty o r := by
  have hfinishes := renderWithin_finishes (SymbolTable.unfolds_wellFounded hacyclic) hnamed.steady
    base.expanding ty o ho.bindings
  obtain ⟨depth, hdepth⟩ := hfinishes.exists
  have hcomposed : (renderWithin depth ty o).Composed (fun _ => True) NoChange :=
    renderWithin_composed ⟨trivial, fun _ _ => trivial⟩ depth ty o
  have hrepeats : (renderWithin depth ty o).Repeats base.table [] fun _ => True :=
    renderWithin_repeats depth (by simp [SymbolTable.AliasesAvoid]) (by simp [Ty.Avoids]) ho
  obtain ⟨r, hr⟩ := hrepeats.gives (hdepth.like hbatch hcomposed)
  refine ⟨r, ?_⟩
  filter_upwards [eventually_ge_atTop depth] with more hmore
  exact hr.refines (renderWithin_refines hmore ty o)

/-! ### Keys -/

/-- The key of a type is the text that it is rendered as for keys. -/
lemma Renders.key (h : base.Renders ty .key r) :
    ∀ᶠ depth in atTop, ((renderWithin depth).key ty).Gives base.Like r.text := by
  filter_upwards [h] with depth hdepth
  exact .bind (.within (fun _ hs => { hs with }) (fun _ hs => { hs with }) hdepth) (.pure r.text)

/-- The bound of the program is no other than all bounds: it is large enough, or exhausted. -/
lemma Renders.typeKey (h : base.Renders ty .key r) :
    ((typeKey ty).exec base).1 = .ok r.text ∨ ((typeKey ty).exec base).1 = .error .exhausted := by
  obtain ⟨depth, hkey, hdepth⟩ := (h.key.and (eventually_ge_atTop depthLimit)).exists
  rcases (renderWithin_refines hdepth).key ty base with hexhausted | hsame
  · exact Or.inr hexhausted
  · refine Or.inl ?_
    rw [← hkey.exec (.refl base), hsame]
    rfl

end Session

end Interop
