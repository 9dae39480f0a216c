import Interop.Proofs.Merging
import Interop.Proofs.Outcomes
import Interop.Proofs.Surroundings

/-!
# Representatives of single types

A type that is merged on its own is looked through, taken apart and put together again.  What comes
of it is written like the type: an alias like what it stands for, and a union like the union of the
types that its members were merged into.  Two things stand in the way.  A union is never shown as
absent or null, but a single type that is left of it is; and an alias that comes up again in what it
stands for is reported there, but not where it was looked through.

* `Ty.LooksAhead` — a type that is looked through no alias that comes up again.
* `Session.shownText` — the text of a union, from what its members were merged into.
* **`merging_keeps_key`** — merging a type on its own keeps its key.
-/

namespace Interop

open Filter Relation Session Work

/-! ## Bounds -/

/-- What takes one step more than another computation terminates if that does. -/
lemma Work.TerminatesWith.of_succ {α : Type} {w w' : Nat → Work α} {s : Session}
    {out : Except Failure α × Session}
    (hstep : ∀ bound, (w (bound + 1)).exec s = (w' bound).exec s)
    (h : TerminatesWith w s out) : TerminatesWith w' s out where
  ended := h.ended
  enough := by
    filter_upwards [eventually_succ h.enough] with bound hbound
    rw [← hstep, hbound]
  otherwise bound := hstep bound ▸ h.otherwise (bound + 1)

/-! ## Keys -/

lemma exec_key (render : Renderer) (ty : Ty) (s : Session) : (render.key ty).exec s =
    (((render ty .key).exec s.detach).1.map Rendered.text,
      ((render ty .key).exec s.detach).2.attach) := by
  show (Work.detached (render ty .key) >>= fun r => pure r.text).exec s = _
  rw [exec_bind, exec_detached]
  cases ((render ty .key).exec s.detach).1 <;> rfl

/-- A key that was found is the key. -/
lemma key_terminates {bound : Nat} {ty : Ty} {s : Session} {key : String}
    (h : (((renderWithin bound).key ty).exec s).1 = .ok key) :
    ∃ t, TerminatesWith (fun depth => (renderWithin depth).key ty) s (.ok key, t) := by
  rcases hrun : ((renderWithin bound).key ty).exec s with ⟨out, t⟩
  rw [hrun] at h
  obtain rfl : out = .ok key := h
  exact ⟨t, .of_ok (fun hle => (renderWithin_refines hle).key ty) hrun⟩

/-- What types were merged into is what they are merged into. -/
lemma merge_terminates {bound : Nat} {tys : List Ty} {s t : Session} {d : DistinctTypes}
    (h : (mergeWithin bound tys).exec s = (.ok d, t)) :
    TerminatesWith (mergeWithin · tys) s (.ok d, t) :=
  .of_ok (fun hle => DistinctTypes.ofTypes_refines (renderWithin_refines hle) hle tys) h

/-! ## Looking through aliases -/

/-- **A type that is looked through no alias that comes up again** in what that alias stands for. -/
def Ty.LooksAhead (table : SymbolTable) (ty : Ty) : Prop :=
  ∀ other id body, ReflTransGen table.Abbreviates ty other →
    aliasBody? table [] other = some (id, body) → ¬ table.BringsUp body id

section

variable {s : Session} {ty body : Ty} {id : Nat}

lemma Ty.LooksAhead.aliasBody? {table : SymbolTable} (h : ty.LooksAhead table)
    (hbody : aliasBody? table [] ty = some (id, body)) : body.LooksAhead table :=
  fun other id' body' hreach =>
    h other id' body' (.head (SymbolTable.abbreviates_iff.mpr ⟨id, hbody⟩) hreach)

/-- Where aliases are not recursive, none comes up again. -/
lemma Ty.LooksAhead.of_acyclic {table : SymbolTable}
    (hacyclic : ∀ id, ¬ TransGen table.Uses id id) (ty : Ty) : ty.LooksAhead table := by
  intro other id body _ hbody hup
  obtain ⟨first, hfirst, hreach⟩ := hup.reached
  exact hacyclic id (.head' (uses_of_aliasBody? hbody hfirst) hreach)

/-- **An alias has the key of what it stands for**, if it does not come up there. -/
lemma exec_key_aliasBody (hexpanding : s.expanding = [])
    (hbody : aliasBody? s.table [] ty = some (id, body)) (hback : ¬ s.table.BringsUp body id)
    (depth : Nat) :
    ((renderWithin (depth + 1)).key ty).exec s = ((renderWithin depth).key body).exec s := by
  have hindifferent : body.Indifferent s.table [id] [] := by
    intro other hother
    rw [List.mem_singleton]
    refine iff_of_false ?_ List.not_mem_nil
    rintro rfl
    exact hback hother
  obtain ⟨out, t, -, -, hinside, houtside⟩ := renderWithin_unaffected s.table depth
    (.detach ⟨[id], s.detachment⟩ ⟨[], s.detachment⟩) hindifferent .key s rfl
  have henter : s.detach.pushAlias id = s.amid (Surroundings.detach ⟨[id], s.detachment⟩) := by
    show { s with expanding := id :: s.expanding, detachment := s.detachment + 1 } = _
    rw [hexpanding]
    rfl
  have hself : s.detach = s.amid (Surroundings.detach ⟨[], s.detachment⟩) := by
    show _ = { s with expanding := [], detachment := s.detachment + 1 }
    rw [← hexpanding]
    rfl
  have hsame : (renderWithin (depth + 1) ty .key).exec s.detach =
      (renderWithin depth body .key).exec s.detach := by
    rw [exec_renderWithin_expands (s := s.detach) (expands_of_aliasBody? hbody)
      (hexpanding ▸ List.not_mem_nil) .key, exec_expanding, henter, hinside, hself, houtside]
    rfl
  rw [exec_key, exec_key, hsame]

/-- The key stays the same along a chain of aliases, none of which was seen before. -/
lemma Follows.key_terminates (hexpanding : s.expanding = []) {seen : List Nat} {last : Ty}
    {out : Except Failure String × Session} (h : Follows s.table [] seen ty last) :
    ty.LooksAhead s.table → (∀ id ∈ seen, ¬ s.table.BringsUp ty id) →
      TerminatesWith (fun depth => (renderWithin depth).key ty) s out →
        TerminatesWith (fun depth => (renderWithin depth).key last) s out := by
  induction h with
  | stop => exact fun _ _ hkey => hkey
  | closed hsome hid =>
      exact fun _ hseen => absurd (expands_of_aliasBody? hsome).bringsUp (hseen _ hid)
  | @step seen ty body last id hsome _ _ ih =>
      intro hahead hseen hkey
      have hback := hahead ty id body .refl hsome
      have hbody := hkey.of_succ (exec_key_aliasBody hexpanding hsome hback)
      refine ih (hahead.aliasBody? hsome) ?_ hbody
      refine List.forall_mem_cons.mpr ⟨hback, fun other hother hup => hseen other hother ?_⟩
      exact hup.unfolds (.single (.expand (expands_of_aliasBody? hsome)))

/-- **A type has the key of what it is looked through to.** -/
lemma key_followAliases (hexpanding : s.expanding = []) (hahead : ty.LooksAhead s.table)
    {out : Except Failure String × Session}
    (hkey : TerminatesWith (fun depth => (renderWithin depth).key ty) s out) :
    TerminatesWith (fun depth => (renderWithin depth).key (followAliases s.table [] ty)) s out :=
  (follows_followAliases s.table [] ty).key_terminates hexpanding hahead
    (fun _ hid => absurd hid List.not_mem_nil) hkey

end

/-! ## Merging one type -/

section

variable {s t : Session} {depth : Nat} {ty : Ty} {members : List Ty} {d : DistinctTypes}

/-- Parts of a type that are kept by their keys. -/
def DistinctTypes.addParts (depth : Nat) (d : DistinctTypes) (parts : List Ty) :
    Work DistinctTypes :=
  parts.foldlM (fun d part => do return d.insert (← (renderWithin depth).key part) part) d

lemma DistinctTypes.addParts_append (d : DistinctTypes) (parts more : List Ty) :
    d.addParts depth (parts ++ more) = d.addParts depth parts >>= (·.addParts depth more) :=
  List.foldlM_append ..

lemma exec_add {parts : List Ty}
    (hparts : components s.table s.expanding depth ty = some parts) (d : DistinctTypes) :
    (d.add (renderWithin depth) depth ty).exec s = (d.addParts depth parts).exec s := by
  unfold DistinctTypes.add
  rw [exec_get_bind, hparts]
  rfl

lemma mergeWithin_singleton (depth : Nat) (ty : Ty) :
    mergeWithin depth [ty] = DistinctTypes.add (renderWithin depth) depth {} ty := by
  show DistinctTypes.add (renderWithin depth) depth {} ty >>= _ = _
  exact bind_pure _

/-- A type is merged like what it is looked through to. -/
lemma exec_mergeWithin_followAliases (depth : Nat) (ty : Ty) (s : Session) :
    (mergeWithin depth [followAliases s.table s.expanding ty]).exec s =
      (mergeWithin depth [ty]).exec s := by
  have hparts : components s.table s.expanding depth (followAliases s.table s.expanding ty) =
      components s.table s.expanding depth ty := by
    cases depth with
    | zero => rfl
    | succ depth => simp only [components, followAliases_idem]
  rw [mergeWithin_singleton, mergeWithin_singleton]
  unfold DistinctTypes.add
  rw [exec_get_bind, exec_get_bind, hparts]

/-- Types are merged part by part. -/
lemma exec_foldlM_add (parts : Ty → List Ty) : ∀ {members : List Ty} {d : DistinctTypes}
    {s : Session}, (∀ member ∈ members,
        components s.table s.expanding depth member = some (parts member)) →
      (members.foldlM (DistinctTypes.add (renderWithin depth) depth) d).exec s =
        (d.addParts depth (members.flatMap parts)).exec s
  | [], _, _, _ => rfl
  | member :: members, d, s, h => by
      have hfirst := exec_add (h member List.mem_cons_self) d
      rw [List.flatMap_cons, DistinctTypes.addParts_append, List.foldlM_cons, exec_bind, exec_bind,
        ← hfirst]
      rcases hrun : (d.add (renderWithin depth) depth member).exec s with ⟨failure | d', t⟩
      · rfl
      · obtain ⟨hgrows, -⟩ := add_known depth d member s d' t hrun
        refine exec_foldlM_add parts fun other hother => ?_
        rw [hgrows.table, hgrows.expanding, h other (List.mem_cons_of_mem _ hother)]

/-- **A union is merged like its members.** -/
lemma exec_merge_members {parts : Ty → List Ty}
    (hform : ty = .union members ∨ ty = .intersection members)
    (hself : followAliases s.table s.expanding ty = ty)
    (hparts : ∀ member ∈ members,
      components s.table s.expanding depth member = some (parts member))
    (hrun : (mergeWithin depth members).exec s = (.ok d, t)) :
    (mergeWithin (depth + 1) [ty]).exec s = (.ok d, t) := by
  have hfound : components s.table s.expanding (depth + 1) ty = some (members.flatMap parts) := by
    rw [List.flatMap_def]
    simp only [components, hself]
    rcases hform with rfl | rfl <;> exact congrArg (Option.map List.flatten) (mapM_eq_some hparts)
  have hrefines : (DistinctTypes.addParts depth {} (members.flatMap parts)).Refines
      (DistinctTypes.addParts (depth + 1) {} (members.flatMap parts)) :=
    .foldlM (fun d part => .map ((renderWithin_refines (Nat.le_succ depth)).key part) _) _ _
  rw [mergeWithin_singleton, exec_add hfound]
  have hflat : (DistinctTypes.addParts depth {} (members.flatMap parts)).exec s = (.ok d, t) :=
    (exec_foldlM_add parts hparts).symm.trans hrun
  rcases hrefines s with hexhausted | hsame
  · rw [hflat] at hexhausted
    cases hexhausted
  · exact hsame.trans hflat

/-- A type that is no union is merged into itself, under its key. -/
lemma exec_merge_self (hself : followAliases s.table s.expanding ty = ty)
    (hunion : ty.isUnion = false) {key : String}
    (hrun : ((renderWithin (depth + 1)).key ty).exec s = (.ok key, t)) :
    (mergeWithin (depth + 1) [ty]).exec s = (.ok ⟨[(key, ty)]⟩, t) := by
  have hfound : components s.table s.expanding (depth + 1) ty = some [ty] := by
    rw [components_of_isUnion (by rwa [hself]), hself]
  rw [mergeWithin_singleton, exec_add hfound]
  show ((((renderWithin (depth + 1)).key ty >>= _) >>= _) : Work DistinctTypes).exec s = _
  rw [exec_bind, exec_bind, hrun]
  rfl

/-! ## Unions -/

/-- **The text of a union**, from what its members were merged into. -/
def Session.shownText (s : Session) (depth : Nat) (d : DistinctTypes) : String :=
  ((shownMember s.policy (d.types.filter fun part => isConcreteKey (s.keyOf depth part))).map
    (s.keyOf depth)).getD untypedText

namespace Session.Merged

variable {tys : List Ty}

lemma keys_eq (h : s.Merged depth tys d) : d.keys = d.types.map (s.keyOf depth) := by
  rw [h.collected]
  exact (DistinctTypes.Collected.ofList _ _).keys_eq.symm

/-- A union of merged types is rendered as the text that they lead to. -/
lemma gives_shownText (h : s.Merged depth tys d) (ty : Ty) (members : List Ty) :
    (renderMerged (renderWithin depth) ty members .key d).Gives (s.Recalls [])
      (.plain (s.shownText depth d)) :=
  gives_renderMerged (Recalls.fixes s) (fun _ hpart => (h.keyOf (h.isComponent hpart).1).gives) ty
    members

/-- Types that were merged are merged once more into what they are. -/
lemma gives_types (h : s.Merged (depth + 1) tys d) :
    (mergeWithin (depth + 1) d.types).Gives (s.Recalls []) d := by
  have hfound : ∀ part ∈ d.types,
      components s.table s.expanding (depth + 1) part = some [part] :=
    fun part hpart => (h.isComponent hpart).2 depth
  have hsame : d = DistinctTypes.collect (s.keyOf (depth + 1)) {}
      (d.types.flatMap fun part => [part]) := by
    rw [List.flatMap_singleton']
    nth_rewrite 2 [h.collected]
    rw [DistinctTypes.collect_types, ← h.collected]
  nth_rewrite 2 [hsame]
  refine gives_ofTypes (Recalls.fixes s) _ hfound fun part hpart => ?_
  rw [List.flatMap_singleton'] at hpart
  exact (h.keyOf (h.isComponent hpart).1).keyOf

end Session.Merged

/-- Merging does not depend on whether text is written. -/
lemma exec_mergeWithin_detach (depth : Nat) (tys : List Ty) (s : Session) :
    (mergeWithin depth tys).exec s.detach =
      (((mergeWithin depth tys).exec s).1, ((mergeWithin depth tys).exec s).2.detach) := by
  have hunaffected : (mergeWithin depth tys).Unaffected s.table ⟨s.expanding, s.detachment + 1⟩
      ⟨s.expanding, s.detachment⟩ _ :=
    DistinctTypes.ofTypes_unaffected (renderWithin_unaffected s.table depth) depth
      fun ty _ => .refl s.expanding ty
  obtain ⟨out, t, -, -, hinside, houtside⟩ := hunaffected s rfl
  rw [show (mergeWithin depth tys).exec s = _ from houtside]
  exact hinside

/-- **The key of a union** is the text that its members lead to once they are merged. -/
lemma key_of_members {key : String} (hform : ty = .union members ∨ ty = .intersection members)
    (hkey : ((renderWithin (depth + 1)).key ty).exec s = (.ok key, t)) :
    ∃ d u, (mergeWithin depth members).exec s = (.ok d, u) ∧ key = u.shownText depth d := by
  have hrender : renderWithin (depth + 1) ty .key = mergeWithin depth members >>=
      renderMerged (renderWithin depth) ty members .key := by
    rcases hform with rfl | rfl <;> rfl
  rw [exec_key, hrender] at hkey
  rcases hrun : (mergeWithin depth members >>= renderMerged (renderWithin depth) ty members
    .key).exec s.detach with ⟨failure | r, v⟩
  · rw [hrun] at hkey
    cases hkey
  obtain ⟨d, u, hmerge, hshown⟩ := exec_bind_ok hrun
  rw [exec_mergeWithin_detach] at hmerge
  rcases hrun' : (mergeWithin depth members).exec s with ⟨failure | d', w⟩
  · rw [hrun'] at hmerge
    cases hmerge
  rw [hrun'] at hmerge
  obtain ⟨hd, rfl⟩ := Prod.mk.inj hmerge
  obtain rfl := Except.ok.inj hd
  obtain ⟨-, hmerged⟩ := mergeWithin_ends depth members s d' w hrun'
  have htext := (hmerged.gives_shownText ty members).exec ((Recalls.fixes w).detach w (.refl w))
  rw [hshown] at htext
  obtain rfl := Except.ok.inj htext
  rw [hrun] at hkey
  exact ⟨d', w, rfl, (Except.ok.inj (Prod.mk.inj hkey).1).symm⟩

/-- What several types that were merged are rendered as. -/
lemma Session.Merged.key_union {tys : List Ty} (h : s.Merged (depth + 1) tys d) :
    (((renderWithin (depth + 2)).key (.union d.types)).exec s).1 =
      .ok (s.shownText (depth + 1) d) := by
  have hunion : (renderWithin (depth + 2) (.union d.types) .key).Gives (s.Recalls [])
      (.plain (s.shownText (depth + 1) d)) :=
    .bind h.gives_types (h.gives_shownText (.union d.types) d.types)
  have hkey : ((renderWithin (depth + 2)).key (.union d.types)).Gives (s.Recalls [])
      (s.shownText (depth + 1) d) :=
    .bind ((Recalls.fixes s).detached hunion) (.pure _)
  exact hkey.exec (.refl s)

/-- A key that does not say what type it is, is one of three. -/
lemma isConcreteKey_eq_false {key : String} :
    isConcreteKey key = false ↔ key = untypedText ∨ key = absentText ∨ key = nullText := by
  rw [or_iff_not_imp_left, or_iff_not_imp_left]
  simp [isConcreteKey]

/-- **The key of a representative** is the text that the types lead to, but for a single type that
is absent or null. -/
lemma Session.Merged.representative_key {tys : List Ty} (h : s.Merged (depth + 1) tys d) :
    ∃ text t, TerminatesWith
        (fun depth => (renderWithin depth).key (d.representative?.getD .any)) s (.ok text, t) ∧
      (d.keys = [absentText] ∨ d.keys = [nullText] →
        s.shownText (depth + 1) d = untypedText ∧ d.keys = [text]) ∧
      (¬ (d.keys = [absentText] ∨ d.keys = [nullText]) → text = s.shownText (depth + 1) d) := by
  have hkeys := h.keys_eq
  have hrepresentative : d.representative? = Ty.ofUnion d.types := rfl
  rcases htypes : d.types with _ | ⟨ty, _ | ⟨other, rest⟩⟩
  · have hkey : (((renderWithin 1).key .any).exec s).1 = .ok untypedText := rfl
    obtain ⟨t, hany⟩ := key_terminates hkey
    have hshown : s.shownText (depth + 1) d = untypedText := by
      simp [shownText, htypes, shownMember]
    rw [htypes] at hkeys hrepresentative
    rw [hrepresentative, hshown]
    exact ⟨untypedText, t, hany, by simp [hkeys], fun _ => rfl⟩
  · have hmem : ty ∈ d.types := htypes ▸ List.mem_cons_self
    obtain ⟨t, hkey⟩ := key_terminates ((h.keyOf (h.isComponent hmem).1).keyOf.exec (.refl s))
    have hshown : s.shownText (depth + 1) d = if isConcreteKey (s.keyOf (depth + 1) ty) then
        s.keyOf (depth + 1) ty else untypedText := by
      cases hconcrete : isConcreteKey (s.keyOf (depth + 1) ty) <;>
        simp [shownText, htypes, hconcrete, shownMember]
    rw [htypes] at hkeys hrepresentative
    rw [hrepresentative, hkeys, hshown]
    refine ⟨s.keyOf (depth + 1) ty, t, hkey, fun hsilent => ⟨if_neg ?_, rfl⟩, fun hspeaks => ?_⟩
    · rw [Bool.not_eq_true, isConcreteKey_eq_false]
      simp only [List.map_cons, List.map_nil, List.cons.injEq, and_true] at hsilent
      exact Or.inr hsilent
    · split_ifs with hconcrete
      · rfl
      · rw [Bool.not_eq_true, isConcreteKey_eq_false] at hconcrete
        simp only [List.map_cons, List.map_nil, List.cons.injEq, and_true] at hspeaks
        exact hconcrete.resolve_right hspeaks
  · obtain ⟨t, hunion⟩ := key_terminates h.key_union
    rw [htypes] at hkeys hrepresentative hunion
    rw [hrepresentative]
    exact ⟨_, t, hunion, by simp [hkeys], fun _ => rfl⟩

end

lemma Ty.isUnion_eq_true {ty : Ty} (h : ty.isUnion = true) :
    ∃ members, ty = .union members ∨ ty = .intersection members := by
  cases ty with
  | union members => exact ⟨members, Or.inl rfl⟩
  | intersection members => exact ⟨members, Or.inr rfl⟩
  | _ => cases h

/-- A key that was found is found again. -/
lemma key_again {depth : Nat} {ty : Ty} {s t : Session} {key : String}
    (h : ((renderWithin depth).key ty).exec s = (.ok key, t)) :
    (((renderWithin depth).key ty).exec t).1 = .ok key := by
  have hrepeats : ((renderWithin depth).key ty).Repeats s.table [] fun _ => True :=
    Renderer.Repeats.key (renderWithin_repeats depth) (by simp [SymbolTable.AliasesAvoid])
      (by simp [Ty.Avoids])
  exact ((hrepeats.known key t h).2 t (.refl t)).1

/-- **Merging a type on its own keeps its key**, where no alias is being expanded and the type is
looked through no alias that comes up again in what it stands for.  If the key of the type is found,
the type is merged, and the key of the representative is found, which is any type if there is none.
It is the key of the type, but for one kind of types: a union or intersection of which nothing is
left but one absent type, or nothing but one null, has the key of a type that is not known, while
that of the representative says that it is absent or null. -/
theorem merging_keeps_key (s : Session) (hexpanding : s.expanding = []) (ty : Ty)
    (hahead : ty.LooksAhead s.table) {key : String} {u : Session}
    (hkey : TerminatesWith (fun depth => (renderWithin depth).key ty) s (.ok key, u)) :
    ∃ d t text v, TerminatesWith (mergeWithin · [ty]) s (.ok d, t) ∧
      TerminatesWith (fun depth => (renderWithin depth).key (d.representative?.getD .any)) t
        (.ok text, v) ∧
      ((followAliases s.table [] ty).isUnion = true ∧
          (d.keys = [absentText] ∨ d.keys = [nullText]) →
        key = untypedText ∧ d.keys = [text]) ∧
      (¬ ((followAliases s.table [] ty).isUnion = true ∧
          (d.keys = [absentText] ∨ d.keys = [nullText])) →
        text = key) := by
  have hlast := key_followAliases hexpanding hahead hkey
  have hself := followAliases_idem s.table s.expanding ty
  have hmerge := fun depth => exec_mergeWithin_followAliases depth ty s
  rw [hexpanding] at hself hmerge
  generalize followAliases s.table [] ty = last at hlast hself hmerge ⊢
  rw [← hexpanding] at hself
  obtain ⟨depth, hrun⟩ := (eventually_succ (eventually_succ hlast.enough)).exists
  cases hunion : last.isUnion with
  | false =>
      obtain ⟨v, hagain⟩ := key_terminates (key_again hrun)
      have hmerged := (hmerge (depth + 2)).symm.trans (exec_merge_self hself hunion hrun)
      exact ⟨_, u, key, v, merge_terminates hmerged, hagain, by simp, fun _ => rfl⟩
  | true =>
      obtain ⟨members, hform⟩ := Ty.isUnion_eq_true hunion
      obtain ⟨d, t, hmembers, hshown⟩ := key_of_members hform hrun
      obtain ⟨hgrows, hmerged⟩ := mergeWithin_ends (depth + 1) members s d t hmembers
      have hfound : ∀ member ∈ members, components s.table s.expanding (depth + 1) member =
          some (t.partsOf (depth + 1) member) := fun member hmember => by
        rw [← hgrows.table, ← hgrows.expanding]
        exact (hmerged.known member hmember).found
      have hsingle := exec_merge_members hform hself hfound hmembers
      obtain ⟨text, v, htext, hsilent, hspeaks⟩ := hmerged.representative_key
      refine ⟨d, t, text, v, merge_terminates ((hmerge (depth + 2)).symm.trans hsingle), htext, ?_⟩
      simp only [true_and]
      rw [hshown]
      exact ⟨hsilent, hspeaks⟩

/-- A union with an alias that stands for an interface has the key of the interface, and so has what
it is merged into. -/
theorem merging_keeps_key_box :
    let ty : Ty := .union [.alias 1, .primitive .string]
    boxSession.expanding = [] ∧ ty.LooksAhead boxSession.table ∧ ∃ u d t v,
      TerminatesWith (fun depth => (renderWithin depth).key ty) boxSession (.ok "Box", u) ∧
      TerminatesWith (mergeWithin · [ty]) boxSession (.ok d, t) ∧
      TerminatesWith (fun depth => (renderWithin depth).key (d.representative?.getD .any)) t
        (.ok "Box", v) := by
  intro ty
  have hahead := Ty.LooksAhead.of_acyclic boxSession_acyclic ty
  have hrun : (((renderWithin 4).key ty).exec boxSession).1 = .ok "Box" := rfl
  obtain ⟨u, hkey⟩ := key_terminates hrun
  obtain ⟨d, t, text, v, hmerge, hrepresentative, hsilent, hspeaks⟩ :=
    merging_keeps_key boxSession rfl ty hahead hkey
  have hshown : text = "Box" := hspeaks fun habsent => by
    have huntyped := (hsilent habsent).1
    exact absurd huntyped (by decide)
  subst hshown
  exact ⟨rfl, hahead, u, d, t, v, hkey, hmerge, hrepresentative⟩

/-- A session with an alias for functions that return such functions. -/
def loopSession : Session where
  table := ⟨#[
    { name := "Loop", kind := .alias, file := 0, path := ⟨["Loop"], .type⟩,
      aliased := some (.function ⟨[], [], .alias 0⟩) }]⟩
  policy := .untyped
  log := { mode := .batch }

/-- A union of absent types is not known, but what is left of it is absent.  And an alias that comes
up again in what it stands for is written one level deeper once it was looked through. -/
theorem key_of_absent_union :
    let absent : Ty := .union [.primitive .void, .primitive .undefined]
    let s := Session.start ⟨#[]⟩ .batch .untyped
    (s.expanding = [] ∧ ∃ u d t v,
      TerminatesWith (fun depth => (renderWithin depth).key absent) s (.ok "dynamic", u) ∧
      TerminatesWith (mergeWithin · [absent]) s (.ok d, t) ∧
      TerminatesWith (fun depth => (renderWithin depth).key (d.representative?.getD .any)) t
        (.ok "void", v)) ∧
    (loopSession.expanding = [] ∧ ∃ u d t v,
      TerminatesWith (fun depth => (renderWithin depth).key (.alias 0)) loopSession
        (.ok "dynamic Function()", u) ∧
      TerminatesWith (mergeWithin · [.alias 0]) loopSession (.ok d, t) ∧
      TerminatesWith (fun depth => (renderWithin depth).key (d.representative?.getD .any)) t
        (.ok "dynamic Function() Function()", v)) := by
  intro absent s
  refine ⟨⟨rfl, ?absent⟩, ⟨rfl, ?recursive⟩⟩
  case absent =>
    have hrun : (((renderWithin 3).key absent).exec s).1 = .ok "dynamic" := rfl
    have hmerge : (mergeWithin 3 [absent]).exec s =
        (.ok ⟨[("void", .primitive .void)]⟩, ((mergeWithin 3 [absent]).exec s).2) := rfl
    have hagain : (((renderWithin 1).key (.primitive .void)).exec
        ((mergeWithin 3 [absent]).exec s).2).1 = .ok "void" := rfl
    obtain ⟨u, hkey⟩ := key_terminates hrun
    obtain ⟨v, hrepresentative⟩ := key_terminates hagain
    exact ⟨u, _, _, v, hkey, merge_terminates hmerge, hrepresentative⟩
  case recursive =>
    have hrun : (((renderWithin 4).key (.alias 0)).exec loopSession).1 =
        .ok "dynamic Function()" := rfl
    have hmerge : (mergeWithin 5 [.alias 0]).exec loopSession =
        (.ok ⟨[("dynamic Function() Function()", .function ⟨[], [], .alias 0⟩)]⟩,
          ((mergeWithin 5 [.alias 0]).exec loopSession).2) := rfl
    have hagain : (((renderWithin 5).key (.function ⟨[], [], .alias 0⟩)).exec
        ((mergeWithin 5 [.alias 0]).exec loopSession).2).1 =
          .ok "dynamic Function() Function()" := rfl
    obtain ⟨u, hkey⟩ := key_terminates hrun
    obtain ⟨v, hrepresentative⟩ := key_terminates hagain
    exact ⟨u, _, _, v, hkey, merge_terminates hmerge, hrepresentative⟩

end Interop
