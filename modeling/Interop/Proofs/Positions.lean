import Interop.Proofs.Merging
import Interop.Proofs.ReportMode
import Mathlib.Data.List.Find

/-!
# Positions of merged parameter lists

Parameter lists are merged one after the other: the first one makes a position of each of its
parameters, and each further list adds to the positions that are there, makes those that are
missing, and marks those that it lacks.  A position that is made late has to count for all lists
that came before.  What comes of it can be said of the lists as a whole, position by position.

* `Slots.ofLists` — parameter lists merged one after the other.
* `Slot.Gathers` — a position, said of all that stands there.
* `Slot.Merges`, `Slots.foldIn_merge` — it is that, list by list.
* **`positions_gather`** — and so it is for all lists, in whatever order they come.
-/

namespace Interop

open Work

/-- Parameter lists merged one after the other. -/
def Slots.ofLists (first : List Param) (rest : List (List Param)) : Work (List Slot) := do
  rest.foldlM Slots.foldIn (← Slots.ofParams first)

/-- What stands at a position of parameter lists, list by list. -/
def column (lists : List (List Param)) (i : Nat) : List (Option Param) :=
  lists.map (·[i]?)

/-- The parameters of those lists that have one. -/
def standing (stack : List (Option Param)) : List Param :=
  stack.filterMap id

lemma standing_none (stack : List (Option Param)) :
    standing (stack ++ [none]) = standing stack := by
  simp [standing]

lemma standing_some (stack : List (Option Param)) (p : Param) :
    standing (stack ++ [some p]) = standing stack ++ [p] := by
  simp [standing]

/-- The types of an argument at a position, in list order. -/
def argumentTypes (stack : List (Option Param)) : List Ty :=
  (standing stack).map Param.argumentType

/-- **Names and flags of a position, said of all that stands there**: the names without repetition
in the order in which they come first; optional if a list has nothing there, or a parameter that may
be left out; of any number of arguments if every list has such a parameter there. -/
structure Slot.Counts (stack : List (Option Param)) (slot : Slot) : Prop where
  names : slot.names = ((standing stack).map (·.name)).eraseDups
  optional : slot.optional = true ↔
    none ∈ stack ∨ ∃ p, some p ∈ stack ∧ (p.optional = true ∨ p.rest = true)
  rest : slot.rest = true ↔ ∀ x ∈ stack, ∃ p, x = some p ∧ p.rest = true

/-- **A position, said of all that stands there**: its keys, too, are those of all that the types
count as, without repetition in the order in which they come first, each with the first type that
has it. -/
structure Slot.Gathers (parts : Ty → List Ty) (key : Ty → String) (stack : List (Option Param))
    (slot : Slot) : Prop extends slot.Counts stack where
  keys : slot.types.keys = (((argumentTypes stack).flatMap parts).map key).eraseDups
  types : ∀ entry ∈ slot.types.entries,
    ((argumentTypes stack).flatMap parts).find? (fun part => key part == entry.1) = some entry.2

/-! ## List by list -/

/-- **What a position comes to**, once so much stands there. -/
structure Slot.Merges (s : Session) (stack : List (Option Param)) (slot : Slot) : Prop
    extends slot.Counts stack where
  types : s.Merged depthLimit (argumentTypes stack) slot.types

namespace Slot

variable {s t : Session} {stack : List (Option Param)} {slot : Slot}

lemma Merges.recalls (h : slot.Merges s stack) (hst : s.Recalls [] t) : slot.Merges t stack :=
  { h with types := h.types.recalls hst }

/-- Nothing more stands there. -/
lemma Merges.skip (h : slot.Merges s stack) : slot.skip.Merges s (stack ++ [none]) where
  names := by rw [standing_none]; exact h.names
  optional := by simp [Slot.skip]
  rest := by simp [Slot.skip]
  types := by rw [argumentTypes, standing_none]; exact h.types

/-- One more parameter stands there. -/
lemma Merges.add (h : slot.Merges s stack) (p : Param) :
    (slot.add p).Ends s fun slot' t => slot'.Merges t (stack ++ [some p]) := by
  refine .map (h.types.add p.argumentType) fun types t _ htypes => ⟨⟨?names, ?optional, ?rest⟩, ?_⟩
  case names =>
    have hmem : slot.names.contains p.name = true ↔ p.name ∈ (standing stack).map (·.name) := by
      rw [List.contains_iff_mem, h.names, List.mem_eraseDups]
    rw [standing_some, List.map_append, List.map_singleton, eraseDups_concat, ← h.names]
    simp only [hmem]
  case optional =>
    simp [h.optional, or_and_right, exists_or, or_assoc]
  case rest =>
    simp [h.rest, or_imp, forall_and]
  · rwa [argumentTypes, standing_some, List.map_append]

/-- The position of a parameter that no other list has met, or that all others lack. -/
lemma ofParam_ends (optional : Bool) (p : Param) (s : Session) :
    (Slot.ofParam optional p).Ends s fun slot t =>
      slot.names = [p.name] ∧ t.Merged depthLimit [p.argumentType] slot.types ∧
        slot.optional = (optional || p.optional || p.rest) ∧ slot.rest = p.rest :=
  .map (mergeWithin_ends depthLimit [p.argumentType] s) fun _ _ _ htypes => ⟨rfl, htypes, rfl, rfl⟩

/-- The first list has a parameter there. -/
lemma ofParam_first (p : Param) (s : Session) :
    (Slot.ofParam false p).Ends s fun slot t => slot.Merges t [some p] := by
  refine (ofParam_ends false p s).weaken fun slot t _ ⟨hnames, htypes, hoptional, hrest⟩ => ?_
  exact ⟨⟨by simp [hnames, standing, List.eraseDups_cons], by simp [hoptional], by simp [hrest]⟩,
    htypes⟩

/-- All lists before lack a parameter there. -/
lemma ofParam_later (hsome : stack ≠ []) (hnone : ∀ x ∈ stack, x = none) (p : Param) (s : Session) :
    (Slot.ofParam true p).Ends s fun slot t =>
      Slot.Merges t (stack ++ [some p]) { slot with rest := false } := by
  have hstanding : standing (stack ++ [some p]) = [p] := by
    rw [standing_some, show standing stack = [] from List.filterMap_eq_nil_iff.mpr hnone,
      List.nil_append]
  obtain ⟨x, hx⟩ := List.exists_mem_of_ne_nil stack hsome
  obtain rfl := hnone x hx
  refine (ofParam_ends true p s).weaken fun slot t _ ⟨hnames, htypes, hoptional, hrest⟩ =>
    ⟨⟨?names, ?optional, ?rest⟩, ?_⟩
  case names => simp [hstanding, hnames, List.eraseDups_cons]
  case optional => simp [hoptional, hx]
  case rest =>
    refine iff_of_false Bool.false_ne_true fun hall => ?_
    obtain ⟨q, hq, -⟩ := hall none (List.mem_append_left _ hx)
    cases hq
  · rwa [argumentTypes, hstanding]

end Slot

namespace Slots

variable {s t : Session}

lemma ofParams_merge : ∀ (params : List Param) (s : Session), (Slots.ofParams params).Ends s
    fun slots t => slots.length = params.length ∧
      ∀ (i : Nat) (slot : Slot), slots[i]? = some slot → slot.Merges t [params[i]?]
  | [], s => .pure ⟨rfl, by simp⟩
  | p :: ps, s => by
      rw [Slots.ofParams, List.mapM_cons]
      refine .bind (Slot.ofParam_first p s) fun slot t _ hslot => ?_
      refine .map (ofParams_merge ps t) fun slots u hgrows hrest => ?_
      obtain ⟨hlength, hslots⟩ := hrest
      refine ⟨congrArg Nat.succ hlength, fun i other hother => ?_⟩
      rcases i with _ | i
      · obtain rfl := Option.some.inj hother
        exact hslot.recalls hgrows.recalls
      · exact hslots i other hother

/-- **One more list.**  Positions that all lists before lack were met as often as the others. -/
lemma foldIn_merge : ∀ (slots : List Slot) (params : List Param)
    (columns : Nat → List (Option Param)) (s : Session),
    (∀ (i : Nat) (slot : Slot), slots[i]? = some slot → slot.Merges s (columns i)) →
      (∀ i, slots.length ≤ i → columns i ≠ [] ∧ ∀ x ∈ columns i, x = none) →
        (Slots.foldIn slots params).Ends s fun slots' t =>
          slots'.length = max slots.length params.length ∧ ∀ (i : Nat) (slot : Slot),
            slots'[i]? = some slot → slot.Merges t (columns i ++ [params[i]?])
  | [], [], columns, s, _, _ => .pure ⟨rfl, by simp⟩
  | slot :: slots, [], columns, s, hslots, _ => by
      refine .pure ⟨by simp, fun i other hother => ?_⟩
      rw [List.getElem?_map] at hother
      obtain ⟨slot', hslot', rfl⟩ := Option.map_eq_some_iff.mp hother
      exact (hslots i slot' hslot').skip
  | [], p :: ps, columns, s, hslots, hlater => by
      refine .bind (Slot.ofParam_later (hlater 0 le_rfl).1 (hlater 0 le_rfl).2 p s)
        fun slot t _ hslot => ?_
      have hrest := foldIn_merge [] ps (columns ∘ Nat.succ) t (by simp)
        fun i _ => hlater (i + 1) (Nat.zero_le _)
      refine .map hrest fun slots' u hgrows ⟨hlength, hslots'⟩ => ?_
      refine ⟨by simpa using hlength, fun i other hother => ?_⟩
      rcases i with _ | i
      · obtain rfl := Option.some.inj hother
        exact hslot.recalls hgrows.recalls
      · exact hslots' i other hother
  | slot :: slots, p :: ps, columns, s, hslots, hlater => by
      refine .bind ((hslots 0 slot rfl).add p) fun slot' t hgrows hslot' => ?_
      have hrest := foldIn_merge slots ps (columns ∘ Nat.succ) t
        (fun i other hother => (hslots (i + 1) other hother).recalls hgrows.recalls)
        fun i hi => hlater (i + 1) (Nat.succ_le_succ hi)
      refine .map hrest fun slots' u hgrows' ⟨hlength, hslots'⟩ => ?_
      refine ⟨by simp only [List.length_cons]; omega, fun i other hother => ?_⟩
      rcases i with _ | i
      · obtain rfl := Option.some.inj hother
        exact hslot'.recalls hgrows'.recalls
      · exact hslots' i other hother

/-- **What the positions of parameter lists come to.** -/
structure Merge (s : Session) (lists : List (List Param)) (slots : List Slot) : Prop where
  longest : (∀ params ∈ lists, params.length ≤ slots.length) ∧
    ∃ params ∈ lists, params.length = slots.length
  position : ∀ (i : Nat) (slot : Slot), slots[i]? = some slot → slot.Merges s (column lists i)

lemma Merge.foldIn {lists : List (List Param)} {slots : List Slot} (h : Merge s lists slots)
    (params : List Param) : (Slots.foldIn slots params).Ends s fun slots' t =>
      Merge t (lists ++ [params]) slots' := by
  obtain ⟨hall, longest, hmem, hlongest⟩ := h.longest
  refine (foldIn_merge slots params (column lists) s h.position fun i hi => ⟨?_, ?_⟩).weaken ?_
  · exact fun hnil => List.ne_nil_of_mem hmem (List.map_eq_nil_iff.mp hnil)
  · intro x hx
    obtain ⟨other, hother, rfl⟩ := List.mem_map.mp hx
    exact List.getElem?_eq_none ((hall other hother).trans hi)
  · rintro slots' t - ⟨hlength, hslots⟩
    refine ⟨⟨fun other hother => ?_, ?_⟩, fun i slot hslot => ?_⟩
    · rcases List.mem_append.mp hother with hother | hother
      · exact (hall other hother).trans (hlength ▸ le_max_left _ _)
      · obtain rfl := List.mem_singleton.mp hother
        exact hlength ▸ le_max_right _ _
    · rcases le_total slots.length params.length with hle | hle
      · exact ⟨params, by simp, by rw [hlength, max_eq_right hle]⟩
      · exact ⟨longest, List.mem_append_left _ hmem, by rw [hlength, max_eq_left hle, hlongest]⟩
    · rw [column, List.map_append]
      exact hslots i slot hslot

lemma Merge.foldlM (rest : List (List Param)) {lists : List (List Param)} {slots : List Slot}
    (h : Merge s lists slots) : (rest.foldlM Slots.foldIn slots).Ends s
      fun slots' t => Merge t (lists ++ rest) slots' :=
  .foldlM_through (I := fun lists slots s => Merge s lists slots)
    (fun _ _ _ params h => h.foldIn params) rest h

/-- What positions came to they stay. -/
lemma Merge.recalls {lists : List (List Param)} {slots : List Slot} (h : Merge s lists slots)
    (hst : s.Recalls [] t) : Merge t lists slots :=
  ⟨h.longest, fun i slot hslot => (h.position i slot hslot).recalls hst⟩

/-- The positions of one list. -/
lemma ofParams_merges (params : List Param) (s : Session) :
    (Slots.ofParams params).Ends s fun slots t => Merge t [params] slots :=
  (ofParams_merge params s).weaken fun _ _ _ ⟨hlength, hslots⟩ =>
    ⟨⟨by simp [hlength], params, by simp, hlength.symm⟩, hslots⟩

/-- **What parameter lists come to**, merged one after the other. -/
lemma ofLists_merge (first : List Param) (rest : List (List Param)) (s : Session) :
    (Slots.ofLists first rest).Ends s fun slots t => Merge t (first :: rest) slots :=
  .bind (ofParams_merges first s) fun _ _ _ hfirst => hfirst.foldlM rest

end Slots

/-! ## Lists in another order -/

/-- **A session like another one**, but for what was reported and imported; and where nothing may be
reported, nothing was. -/
structure Session.Resembles (base s : Session) : Prop where
  view : s.view = base.view
  mode : s.log.mode = base.log.mode
  silent : base.log.mode = .failFast → s.log = base.log

namespace Session

variable {base s u : Session}

lemma Resembles.refl (s : Session) : s.Resembles s :=
  ⟨rfl, rfl, fun _ => rfl⟩

lemma Resembles.symm (h : base.Resembles s) : s.Resembles base :=
  ⟨h.view.symm, h.mode.symm, fun hmode => (h.silent (h.mode.symm.trans hmode)).symm⟩

lemma Resembles.trans (h : base.Resembles s) (k : s.Resembles u) : base.Resembles u :=
  ⟨k.view.trans h.view, k.mode.trans h.mode, fun hmode =>
    (k.silent (h.mode.trans hmode)).trans (h.silent hmode)⟩

lemma Resembles.table (h : base.Resembles s) : s.table = base.table :=
  congr_view (·.table) (fun _ => rfl) h.view

lemma Resembles.expanding (h : base.Resembles s) : s.expanding = base.expanding :=
  congr_view (·.expanding) (fun _ => rfl) h.view

/-- Reports that are no news where nothing may be reported are no news to the same log. -/
lemma replay_silent (steps : List Step) : ∀ {s u : Session}, s.log.mode = .failFast →
    u.log = s.log → (s.replay steps).1 = .ok () →
      (u.replay steps).1 = .ok () ∧ (u.replay steps).2.log = s.log := by
  induction steps with
  | nil => exact fun _ hlog _ => ⟨rfl, hlog⟩
  | cons step rest ih =>
      intro s u hmode hlog hok
      cases step with
      | report d =>
          by_cases hmem : d ∈ s.log.entries
          · simp only [replay, take, hlog, Log.add_of_mem hmem, Except.map] at hok ⊢
            exact ih (s := { s with log := s.log }) hmode rfl hok
          · simp [replay, take, Log.add, hmem, hmode, Except.map] at hok
      | refer library =>
          exact ih (s := { s with imports := importsAfter s.current library s.imports })
            (u := { u with imports := importsAfter u.current library u.imports }) hmode hlog hok
      | pointAt span => exact ih (s := s.pointAt span) (u := u.pointAt span) hmode hlog hok

end Session

lemma Session.Settled.resembles {may : Failure → Prop} {s t : Session} (hs : s.Settled may)
    (h : s.Resembles t) : t.Settled may :=
  hs.congr h.table (Session.congr_view (·.registry) (fun _ => rfl) h.view)
    (Session.congr_view (·.libraries) (fun _ => rfl) h.view)
    (Session.congr_view (·.assignments) (fun _ => rfl) h.view)

/-- **What succeeds where all names are given** has the same result in every session like it. -/
lemma Work.Traced.resembles {α : Type} {w : Work α} {a : α} {s : Session} {may : Failure → Prop}
    (hw : w.Traced may s.table) (hs : s.Settled may)
    (hcomposed : w.Composed (fun _ => True) Session.NoChange) (hok : (w.exec s).1 = .ok a) :
    w.Gives s.Resembles a := by
  obtain ⟨trace, -, hrun⟩ := hw s hs rfl
  have hsteps : (s.replay trace.steps).1 = .ok () ∧ trace.outcome = .ok a := by
    rw [hrun s rfl, Trace.replay] at hok
    rcases hsame : s.replay trace.steps with ⟨failure | _, v⟩
    all_goals rw [hsame] at hok
    · cases hok
    · exact ⟨rfl, hok⟩
  intro u hu
  have hreplay : (u.replay trace.steps).1 = .ok () ∧
      (s.log.mode = .failFast → (u.replay trace.steps).2.log = s.log) := by
    cases hmode : s.log.mode with
    | batch =>
        exact ⟨(Session.replay_batch trace.steps (hu.mode.trans hmode)).1, fun h => by cases h⟩
    | failFast =>
        have hsilent := Session.replay_silent trace.steps hmode (hu.silent hmode) hsteps.1
        exact ⟨hsilent.1, fun _ => hsilent.2⟩
  have hleaves := Session.Leaves.exec (hu.table ▸ hw) (hs.resembles hu)
  have hposition := (hcomposed.undisturbed u).position
  have hafter : (w.exec u).1 = trace.outcome ∧ (w.exec u).2 = (u.replay trace.steps).2 := by
    rw [hrun u hu.view, Trace.replay]
    rcases hsame : u.replay trace.steps with ⟨failure | _, v⟩
    · rw [hsame] at hreplay
      cases hreplay.1
    · exact ⟨rfl, rfl⟩
  refine ⟨⟨?_, hleaves.mode.trans hu.mode, ?_⟩, fun b hb => ?_, fun failure hfailure => ?_⟩
  · rw [hleaves.kept, hposition, ← hu.view]
    rfl
  · rw [hafter.2]
    exact hreplay.2
  · rw [hafter.1, hsteps.2] at hb
    exact (Except.ok.inj hb).symm
  · rw [hafter.1, hsteps.2] at hfailure
    cases hfailure

section

variable {I : Session → Prop}

/-- A parameter of which the types can be merged into all others, in all sessions with an
invariant. -/
def Param.CanMerge (I : Session → Prop) (p : Param) : Prop :=
  ∀ d : DistinctTypes, (d.add render depthLimit p.argumentType).Yields I (fun _ => False)
    fun _ => True

namespace Slots

lemma ofParam_yields {p : Param} (hp : p.CanMerge I) (optional : Bool) :
    (Slot.ofParam optional p).Yields I (fun _ => False) fun _ => True :=
  .bind (.foldlM (P := fun _ => True) trivial fun d _ _ hty => List.mem_singleton.mp hty ▸ hp d)
    fun _ _ => .pure trivial

lemma foldIn_yields : ∀ (slots : List Slot) {params : List Param},
    (∀ p ∈ params, p.CanMerge I) →
      (Slots.foldIn slots params).Yields I (fun _ => False) fun _ => True
  | [], [], _ => .pure trivial
  | _ :: _, [], _ => .pure trivial
  | [], p :: ps, h => by
      refine .bind (ofParam_yields (h p List.mem_cons_self) true) fun _ _ => ?_
      exact .map (foldIn_yields [] fun q hq => h q (List.mem_cons_of_mem _ hq)) fun _ _ => trivial
  | slot :: slots, p :: ps, h => by
      have hadd : (slot.add p).Yields I (fun _ => False) fun _ => True :=
        .map (h p List.mem_cons_self slot.types) fun _ _ => trivial
      refine .bind hadd fun _ _ => ?_
      exact .map (foldIn_yields slots fun q hq => h q (List.mem_cons_of_mem _ hq))
        fun _ _ => trivial

lemma ofLists_yields {first : List Param} {rest : List (List Param)}
    (h : ∀ params ∈ first :: rest, ∀ p ∈ params, p.CanMerge I) :
    (Slots.ofLists first rest).Yields I (fun _ => False) fun _ => True := by
  refine .bind (.mapM fun p hp => ofParam_yields (h first List.mem_cons_self p hp) false)
    fun slots _ => .foldlM (P := fun _ => True) trivial fun slots _ params hparams => ?_
  exact foldIn_yields slots (h params (List.mem_cons_of_mem _ hparams))

end Slots

end

/-! ## Positions -/

section

variable {s t u : Session} {lists : List (List Param)} {slots : List Slot}

lemma Slot.Merges.gathers {stack : List (Option Param)} {slot : Slot} (h : slot.Merges s stack) :
    slot.Gathers (s.partsOf depthLimit) (s.keyOf depthLimit) stack where
  toCounts := h.toCounts
  keys := by rw [h.types.collected, DistinctTypes.keys_collect]
  types entry hentry := by
    rw [h.types.collected] at hentry
    exact DistinctTypes.find?_of_mem_collect hentry

/-- What is merged of a parameter is known. -/
lemma Slots.Merge.known (h : Slots.Merge s lists slots) {params : List Param}
    (hparams : params ∈ lists) {p : Param} (hp : p ∈ params) :
    s.KnowsParts depthLimit p.argumentType := by
  obtain ⟨i, hi⟩ := List.mem_iff_getElem?.mp hp
  have hlt : i < slots.length :=
    (List.getElem?_eq_some_iff.mp hi).1.trans_le (h.longest.1 params hparams)
  refine (h.position i slots[i] (List.getElem?_eq_getElem hlt)).types.known _ ?_
  refine List.mem_map.mpr ⟨p, List.mem_filterMap.mpr ⟨some p, ?_, rfl⟩, rfl⟩
  exact List.mem_map.mpr ⟨params, hparams, hi⟩

lemma mem_argumentTypes {ty : Ty} {i : Nat} (h : ty ∈ argumentTypes (column lists i)) :
    ∃ params ∈ lists, ∃ p ∈ params, p.argumentType = ty := by
  obtain ⟨p, hp, rfl⟩ := List.mem_map.mp h
  obtain ⟨x, hx, hsome⟩ := List.mem_filterMap.mp hp
  obtain ⟨params, hparams, rfl⟩ := List.mem_map.mp hx
  exact ⟨params, hparams, p, List.mem_of_getElem? hsome, rfl⟩

/-- Where all names are given, a key that is known is the key in every session like that. -/
lemma Session.Knows.resembles (hs : s.Settled fun _ => True) {ty : Ty}
    (h : s.Knows (renderWithin depthLimit ty .key) (s.keyed depthLimit ty)) :
    (typeKey ty).Gives s.Resembles (s.keyOf depthLimit ty) :=
  Work.Traced.resembles (Renderer.Traced.key render_traced ty) hs
    (Renderer.Composed.key (render_composed ⟨trivial, fun _ _ => trivial⟩) ty)
    (h.keyOf.exec (.refl s))

/-- What a position is said to be in terms of parts and keys that are the same. -/
lemma Slot.Gathers.congr {parts parts' : Ty → List Ty} {key key' : Ty → String}
    {stack : List (Option Param)} {slot : Slot} (h : slot.Gathers parts key stack)
    (hparts : ∀ ty ∈ argumentTypes stack, parts ty = parts' ty)
    (hkey : ∀ part ∈ (argumentTypes stack).flatMap parts', key part = key' part) :
    slot.Gathers parts' key' stack where
  toCounts := h.toCounts
  keys := by rw [h.keys, List.flatMap_congr hparts, List.map_congr_left hkey]
  types entry hentry := by
    rw [← h.types entry hentry, List.flatMap_congr hparts]
    refine List.find?_congr fun part hpart => ?_
    rw [hkey part hpart]

/-- **The order of lists matters only to the order of names and keys.** -/
lemma Slot.Gathers.perm {parts : Ty → List Ty} {key : Ty → String}
    {stack stack' : List (Option Param)} {slot slot' : Slot} (h : slot.Gathers parts key stack)
    (h' : slot'.Gathers parts key stack') (hperm : stack'.Perm stack) :
    slot'.names.Perm slot.names ∧ slot'.types.keys.Perm slot.types.keys ∧
      slot'.optional = slot.optional ∧ slot'.rest = slot.rest := by
  have hstanding : (standing stack').Perm (standing stack) := hperm.filterMap id
  refine ⟨?_, ?_, ?_, ?_⟩
  · rw [h.names, h'.names]
    exact eraseDups_perm (hstanding.map _)
  · rw [h.keys, h'.keys]
    exact eraseDups_perm (((hstanding.map _).flatMap_right parts).map key)
  · rw [Bool.eq_iff_iff, h.optional, h'.optional]
    simp only [hperm.mem_iff]
  · rw [Bool.eq_iff_iff, h.rest, h'.rest]
    simp only [hperm.mem_iff]

lemma Slots.ofLists_resembles (hs : s.Settled fun _ => True) {first : List Param}
    {rest : List (List Param)} (hrun : (Slots.ofLists first rest).exec s = (.ok slots, t)) :
    s.Resembles t := by
  have htraced : (Slots.ofLists first rest).Traced (fun _ => True) s.table :=
    .bind (.mapM fun p _ => Slot.ofParam_traced false p) fun slots =>
      .foldlM slots fun slots params _ => Slots.foldIn_traced slots params
  have hcomposed : (Slots.ofLists first rest).Composed (fun _ => True) Session.NoChange :=
    .bind (Slots.ofParams_composed ⟨trivial, fun _ _ => trivial⟩ first) fun slots =>
      .foldlM slots fun slots params _ =>
        Slots.foldIn_composed ⟨trivial, fun _ _ => trivial⟩ slots params
  have hgives := htraced.resembles hs hcomposed (congrArg Prod.fst hrun)
  have hafter := (hgives s (.refl s)).1
  rwa [hrun] at hafter

/-- Where all names are given, what was merged can be merged in every session like that. -/
lemma Slots.Merge.canMerge (hs : t.Settled fun _ => True) (h : Slots.Merge t lists slots)
    {params : List Param} (hparams : params ∈ lists) {p : Param} (hp : p ∈ params) :
    p.CanMerge t.Resembles := by
  intro d
  refine .get_bind fun u hu => ?_
  rw [hu.table, hu.expanding, (h.known hparams hp).found]
  refine .foldlM (P := fun _ => True) trivial fun d _ part hpart => ?_
  exact .map (((h.known hparams hp).known part hpart).resembles hs) fun _ _ => trivial

/-- Where all names are given, known types have the same keys in every session like that. -/
lemma Session.KnowsParts.resembles (hs : s.Settled fun _ => True) (hst : s.Resembles t) {ty : Ty}
    (h : s.KnowsParts depthLimit ty) (h' : t.KnowsParts depthLimit ty) :
    t.partsOf depthLimit ty = s.partsOf depthLimit ty ∧
      ∀ part ∈ s.partsOf depthLimit ty, t.keyOf depthLimit part = s.keyOf depthLimit part := by
  have hparts : t.partsOf depthLimit ty = s.partsOf depthLimit ty := by
    rw [Session.partsOf, Session.partsOf, hst.table, hst.expanding]
  refine ⟨hparts, fun part hpart => ?_⟩
  have hfirst := ((h.known part hpart).resembles hs).exec hst
  have hsecond := (h'.known part (hparts ▸ hpart)).keyOf.exec (.refl t)
  exact Except.ok.inj (hsecond.symm.trans hfirst)

/-- Where all names are given, the lists are merged in every order, with the same keys. -/
lemma Slots.Merge.perm (hs : t.Settled fun _ => True) (h : Slots.Merge t lists slots)
    (hst : t.Resembles s) {first : List Param} {rest : List (List Param)}
    (hperm : (first :: rest).Perm lists) : ∃ slots' t',
      (Slots.ofLists first rest).exec s = (.ok slots', t') ∧ slots'.length = slots.length ∧
        ∀ (i : Nat) (slot : Slot), slots'[i]? = some slot → slot.Gathers (t.partsOf depthLimit)
          (t.keyOf depthLimit) (column (first :: rest) i) := by
  have hmerge : ∀ params ∈ first :: rest, ∀ p ∈ params, p.CanMerge t.Resembles :=
    fun params hparams p hp => h.canMerge hs (hperm.mem_iff.mp hparams) hp
  obtain ⟨hafter, -, hfails⟩ := Slots.ofLists_yields hmerge s hst
  rcases hrun : (Slots.ofLists first rest).exec s with ⟨failure | slots', t'⟩
  · rw [hrun] at hfails
    exact (hfails failure rfl).elim
  rw [hrun] at hafter
  obtain ⟨-, h'⟩ := Slots.ofLists_merge first rest s slots' t' hrun
  refine ⟨slots', t', rfl, le_antisymm ?_ ?_, fun i slot hslot => ?_⟩
  · obtain ⟨params, hparams, hlength⟩ := h'.longest.2
    exact hlength ▸ h.longest.1 params (hperm.mem_iff.mp hparams)
  · obtain ⟨params, hparams, hlength⟩ := h.longest.2
    exact hlength ▸ h'.longest.1 params (hperm.mem_iff.mpr hparams)
  · have hsame : ∀ ty ∈ argumentTypes (column (first :: rest) i),
        t'.partsOf depthLimit ty = t.partsOf depthLimit ty ∧
          ∀ part ∈ t.partsOf depthLimit ty, t'.keyOf depthLimit part = t.keyOf depthLimit part := by
      intro ty hty
      obtain ⟨params, hparams, p, hp, rfl⟩ := mem_argumentTypes hty
      exact (h.known (hperm.mem_iff.mp hparams) hp).resembles hs hafter (h'.known hparams hp)
    refine (h'.position i slot hslot).gathers.congr (fun ty hty => (hsame ty hty).1) ?_
    intro part hpart
    obtain ⟨ty, hty, hpart⟩ := List.mem_flatMap.mp hpart
    exact (hsame ty hty).2 part hpart

end

/-- **Positions of merged parameter lists, said of the lists as a whole.**  There are as many as the
longest list has.  The names that stand at a position are those of the lists without repetition, and
the keys those of all that the types count as, in list order, each with the first type that has it.
A position is optional if some list has no parameter there, an optional one or one of any number of
arguments, and takes any number if every list does.

If all names are given, the lists can be merged in every order.  That changes the order of the names
and of the keys, and which of the types with one key is the first; all else stays the same. -/
theorem positions_gather (first : List Param) (rest : List (List Param)) {s t : Session}
    {slots : List Slot} (hrun : (Slots.ofLists first rest).exec s = (.ok slots, t)) :
    ∃ (parts : Ty → List Ty) (key : Ty → String),
      (∀ params ∈ first :: rest, ∀ p ∈ params,
        components s.table s.expanding depthLimit p.argumentType = some (parts p.argumentType) ∧
          ∀ part ∈ parts p.argumentType, ((typeKey part).exec t).1 = .ok (key part)) ∧
      (∀ params ∈ first :: rest, params.length ≤ slots.length) ∧
      (∃ params ∈ first :: rest, params.length = slots.length) ∧
      (∀ (i : Nat) (slot : Slot), slots[i]? = some slot →
        slot.Gathers parts key (column (first :: rest) i)) ∧
      ((s.Settled fun _ => True) → ∀ first' rest', (first' :: rest').Perm (first :: rest) →
        ∃ slots' t', (Slots.ofLists first' rest').exec s = (.ok slots', t') ∧
          slots'.length = slots.length ∧
          ∀ (i : Nat) (slot slot' : Slot), slots[i]? = some slot → slots'[i]? = some slot' →
            slot'.Gathers parts key (column (first' :: rest') i) ∧
            slot'.names.Perm slot.names ∧ slot'.types.keys.Perm slot.types.keys ∧
            slot'.optional = slot.optional ∧ slot'.rest = slot.rest) := by
  obtain ⟨hgrows, hmerge⟩ := Slots.ofLists_merge first rest s slots t hrun
  refine ⟨t.partsOf depthLimit, t.keyOf depthLimit, fun params hparams p hp => ?_,
    hmerge.longest.1, hmerge.longest.2, fun i slot hslot => (hmerge.position i slot hslot).gathers,
    fun hs first' rest' hperm => ?_⟩
  · have hknown := hmerge.known hparams hp
    refine ⟨?_, fun part hpart => (hknown.known part hpart).keyOf.exec (.refl t)⟩
    rw [← hgrows.table, ← hgrows.expanding]
    exact hknown.found
  · have hafter := Slots.ofLists_resembles hs hrun
    obtain ⟨slots', t', hrun', hlength, hgathers⟩ :=
      hmerge.perm (hs.resembles hafter) hafter.symm hperm
    refine ⟨slots', t', hrun', hlength, fun i slot slot' hslot hslot' => ?_⟩
    have hold := (hmerge.position i slot hslot).gathers
    exact ⟨hgathers i slot' hslot', hold.perm (hgathers i slot' hslot') (hperm.map _)⟩

/-- Two lists of different lengths, the longer one with a rest parameter, merged in both orders. -/
theorem positions_gather_box :
    let short : List Param := [⟨"a", .primitive .string, false, false⟩]
    let long : List Param := [⟨"b", .union [.alias 1, .primitive .string], false, false⟩,
      ⟨"more", .array (.primitive .number), false, true⟩]
    (boxSession.Settled fun _ => True) ∧ ∃ slots t slots' t',
      (Slots.ofLists short [long]).exec boxSession = (.ok slots, t) ∧
      slots.map (fun slot => (slot.names, slot.types.keys, slot.optional, slot.rest)) =
        [(["a", "b"], ["String", "Box"], false, false), (["more"], ["num"], true, false)] ∧
      (Slots.ofLists long [short]).exec boxSession = (.ok slots', t') ∧
      slots'.length = slots.length ∧
      ∃ (parts : Ty → List Ty) (key : Ty → String), ∀ (i : Nat) (slot slot' : Slot),
        slots[i]? = some slot → slots'[i]? = some slot' →
          slot.Gathers parts key (column [short, long] i) ∧
          slot'.Gathers parts key (column [long, short] i) ∧ slot'.names.Perm slot.names := by
  intro short long
  have hsettled : boxSession.Settled fun _ => True :=
    ⟨trivial, fun _ _ _ _ _ _ => trivial, boxSession_named.given, fun _ _ _ _ _ => trivial,
      fun _ _ _ _ _ => trivial⟩
  obtain ⟨slots, t, hrun, hslots⟩ : ∃ slots t,
      (Slots.ofLists short [long]).exec boxSession = (.ok slots, t) ∧
      slots.map (fun slot => (slot.names, slot.types.keys, slot.optional, slot.rest)) =
        [(["a", "b"], ["String", "Box"], false, false), (["more"], ["num"], true, false)] :=
    ⟨_, _, Prod.ext rfl rfl, rfl⟩
  obtain ⟨parts, key, -, -, -, hgathers, hperm⟩ := positions_gather short [long] hrun
  obtain ⟨slots', t', hrun', hlength, hsame⟩ := hperm hsettled long [short] (.swap ..)
  refine ⟨hsettled, slots, t, slots', t', hrun, hslots, hrun', hlength, parts, key, ?_⟩
  intro i slot slot' hslot hslot'
  obtain ⟨hgathers', hnames, -⟩ := hsame i slot slot' hslot hslot'
  exact ⟨hgathers i slot hslot, hgathers', hnames⟩

/-- Of two types with one key the first is kept, so the order of lists decides which it is. -/
theorem positions_first_type : ∃ (s : Session) (first second : List Param),
    (s.Settled fun _ => True) ∧ ∃ slot slot' t t',
      (Slots.ofLists first [second]).exec s = (.ok [slot], t) ∧
      (Slots.ofLists second [first]).exec s = (.ok [slot'], t') ∧
      ¬ slot'.types.types.Perm slot.types.types := by
  refine ⟨.start ⟨#[]⟩ .batch .untyped, [⟨"x", .any, false, false⟩],
    [⟨"x", .raw "keyof T", false, false⟩], ?_, _, _, _, _, Prod.ext rfl rfl, Prod.ext rfl rfl, ?_⟩
  · exact ⟨trivial, fun _ _ _ _ _ _ => trivial, (fun _ _ _ hget => by cases hget),
      fun _ _ _ _ _ => trivial, fun _ _ _ _ _ => trivial⟩
  · intro hperm
    have hsame : [Ty.raw "keyof T"].Perm [.any] := hperm
    cases List.perm_singleton.mp hsame

end Interop
