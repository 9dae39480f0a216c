import Interop.Proofs.Emission
import Interop.Proofs.Yields
import Mathlib.Data.List.Induction
import Mathlib.Data.List.Pairwise

/-!
# Overloads in groups

Members come one after the other.  Each joins the group of its key, wherever that stands among the
others, or begins a group of its own at the end.  What comes of it can be said of all members at
once: they are parted by their keys, and their order is kept inside of groups and among the first
members of groups.

* `Member.Overloads` — members with one key.
* `addToGroups_cases` — where a member goes.
* `Grouping` — members in groups, each with its place in the source; `Grouping.join` and
  `Grouping.begin` — it stays one with one more member.
* `MergesGroup`, `MergesGroup.standsFor` — what a group is merged into.
* **`groupMembers_partition`** — groups part the members, and each is merged into one.
-/

namespace Interop

open Work

/-- **Members that are overloads of one another**: both have a key, and it is the same. -/
def Member.Overloads (m n : Member) : Prop :=
  OverloadKey.of? m ≠ none ∧ OverloadKey.of? n = OverloadKey.of? m

namespace Member.Overloads

variable {m n k : Member}

lemma symm (h : m.Overloads n) : n.Overloads m :=
  ⟨h.2 ▸ h.1, h.2.symm⟩

lemma trans (h : m.Overloads n) (h' : n.Overloads k) : m.Overloads k :=
  ⟨h.1, h'.2.trans h.2⟩

end Member.Overloads

/-- A member joins a group that begins with an overload of it. -/
lemma joins_iff {m first : Member} {rest : List Member} :
    joins m (first :: rest) = true ↔ first.Overloads m := by
  simp only [joins, Bool.and_eq_true, Option.isSome_iff_ne_none, beq_iff_eq]
  constructor
  · rintro ⟨hkey, hsame⟩
    exact ⟨hsame ▸ hkey, hsame⟩
  · rintro ⟨hkey, hsame⟩
    exact ⟨hsame ▸ hkey, hsame⟩

/-- **Where a member goes**: to the end of the first group that it joins, or into a new group. -/
lemma addToGroups_cases (m : Member) (groups : List (List Member)) :
    (∃ before group after, groups = before ++ group :: after ∧ joins m group = true ∧
      addToGroups m groups = before ++ (group ++ [m]) :: after) ∨
    ((∀ group ∈ groups, joins m group = false) ∧ addToGroups m groups = groups ++ [[m]]) := by
  induction groups with
  | nil => exact .inr ⟨by simp, rfl⟩
  | cons first rest ih =>
      by_cases hjoins : joins m first = true
      · exact .inl ⟨[], first, rest, rfl, hjoins, if_pos hjoins⟩
      · have hskip : addToGroups m (first :: rest) = first :: addToGroups m rest := if_neg hjoins
        rcases ih with ⟨before, group, after, rfl, hgroup, hadd⟩ | ⟨hnone, hadd⟩
        · exact .inl ⟨first :: before, group, after, rfl, hgroup, by rw [hskip, hadd]; rfl⟩
        · refine .inr ⟨List.forall_mem_cons.mpr ⟨by simpa using hjoins, hnone⟩, ?_⟩
          rw [hskip, hadd]
          rfl

/-! ## Groups of members in their places -/

/-- **Members in groups**, each with its place in the source: every member is in one group; overloads
of one another are together, and others apart; groups keep the order of the source, and each begins
before all that stands in later groups. -/
structure Grouping (members : List Member) (groups : List (List (Member × Nat))) : Prop where
  perm : groups.flatten.Perm members.zipIdx
  nonempty : ∀ group ∈ groups, group ≠ []
  together : ∀ group ∈ groups, group.Pairwise fun x y => x.1.Overloads y.1
  apart : groups.Pairwise fun group other => ∀ x ∈ group, ∀ y ∈ other, ¬ x.1.Overloads y.1
  inOrder : ∀ group ∈ groups, group.Pairwise fun x y => x.2 < y.2
  begins : groups.Pairwise fun group other => ∀ x ∈ group.head?, ∀ y ∈ other, x.2 < y.2

namespace Grouping

variable {members : List Member} {groups : List (List (Member × Nat))}

lemma nil : Grouping [] [] := by
  constructor <;> simp

/-- A member that comes next stands after all that are grouped. -/
lemma place_lt (h : Grouping members groups) {group : List (Member × Nat)} (hgroup : group ∈ groups)
    {x : Member × Nat} (hx : x ∈ group) : x.2 < members.length := by
  have hmem := h.perm.mem_iff.mp (List.mem_flatten_of_mem hgroup hx)
  simpa using List.snd_lt_add_of_mem_zipIdx hmem

/-- A list whose entries are in a relation, with one entry in the place of another. -/
lemma pairwise_replace {α : Type} {R : α → α → Prop} {before after : List α} {x y : α}
    (h : (before ++ x :: after).Pairwise R) (hbefore : ∀ z ∈ before, R z x → R z y)
    (hafter : ∀ z ∈ after, R x z → R y z) : (before ++ y :: after).Pairwise R := by
  obtain ⟨hpairs, hrest, hacross⟩ := List.pairwise_append.mp h
  obtain ⟨hx, hpairs'⟩ := List.pairwise_cons.mp hrest
  refine List.pairwise_append.mpr ⟨hpairs, List.pairwise_cons.mpr ⟨?_, hpairs'⟩, fun z hz w hw => ?_⟩
  · exact fun z hz => hafter z hz (hx z hz)
  · rcases List.mem_cons.mp hw with rfl | hw
    · exact hbefore z hz (hacross z hz x List.mem_cons_self)
    · exact hacross z hz w (List.mem_cons_of_mem _ hw)

/-- One more member joins the group of its key. -/
lemma join {before after : List (List (Member × Nat))} {first : Member × Nat}
    {rest : List (Member × Nat)} {m : Member}
    (h : Grouping members (before ++ (first :: rest) :: after)) (hm : first.1.Overloads m) :
    Grouping (members ++ [m])
      (before ++ (first :: rest ++ [(m, members.length)]) :: after) := by
  have hold : first :: rest ∈ before ++ (first :: rest) :: after := by simp
  have hoverloads : ∀ x ∈ first :: rest, x.1.Overloads m := by
    intro x hx
    rcases List.mem_cons.mp hx with rfl | hx
    · exact hm
    · exact ((List.pairwise_cons.mp (h.together _ hold)).1 x hx).symm.trans hm
  have hgroups : ∀ {P : List (Member × Nat) → Prop},
      (∀ group ∈ before ++ (first :: rest) :: after, P group) →
        P (first :: rest ++ [(m, members.length)]) →
          ∀ group ∈ before ++ (first :: rest ++ [(m, members.length)]) :: after, P group := by
    intro P hall hnew group hgroup
    rcases List.mem_append.mp hgroup with hgroup | hgroup
    · exact hall group (List.mem_append_left _ hgroup)
    · rcases List.mem_cons.mp hgroup with rfl | hgroup
      · exact hnew
      · exact hall group (List.mem_append_right _ (List.mem_cons_of_mem _ hgroup))
  refine ⟨?perm, hgroups h.nonempty (by simp), hgroups h.together ?together,
    pairwise_replace h.apart ?_ ?_, hgroups h.inOrder ?inOrder, pairwise_replace h.begins ?_ ?_⟩
  case perm =>
    rw [List.zipIdx_append]
    refine List.Perm.trans ?_ (h.perm.append_right _)
    simp only [List.flatten_append, List.flatten_cons, List.append_assoc, Nat.zero_add]
    exact ((List.perm_append_comm.append_left _).append_left _)
  case together =>
    refine List.pairwise_append.mpr ⟨h.together _ hold, by simp, fun x hx y hy => ?_⟩
    obtain rfl := List.mem_singleton.mp hy
    exact hoverloads x hx
  case inOrder =>
    refine List.pairwise_append.mpr ⟨h.inOrder _ hold, by simp, fun x hx y hy => ?_⟩
    obtain rfl := List.mem_singleton.mp hy
    exact h.place_lt hold hx
  -- who is no overload of the first member of the group is none of the new one
  · intro other _ hapart x hx y hy hxy
    rcases List.mem_append.mp hy with hy | hy
    · exact hapart x hx y hy hxy
    · obtain rfl := List.mem_singleton.mp hy
      exact hapart x hx first List.mem_cons_self (hxy.trans hm.symm)
  · intro other _ hapart x hx y hy hxy
    rcases List.mem_append.mp hx with hx | hx
    · exact hapart x hx y hy hxy
    · obtain rfl := List.mem_singleton.mp hx
      exact hapart first List.mem_cons_self y hy (hm.trans hxy)
  · intro other hother hbegins x hx y hy
    rcases List.mem_append.mp hy with hy | hy
    · exact hbegins x hx y hy
    · obtain rfl := List.mem_singleton.mp hy
      exact h.place_lt (List.mem_append_left _ hother) (List.mem_of_mem_head? hx)
  · exact fun other _ hbegins x hx y hy => hbegins x hx y hy

/-- One more member begins a group. -/
lemma begin {m : Member} (h : Grouping members groups)
    (hnew : ∀ group ∈ groups, ∀ x ∈ group.head?, ¬ x.1.Overloads m) :
    Grouping (members ++ [m]) (groups ++ [[(m, members.length)]]) := by
  have hnone : ∀ group ∈ groups, ∀ x ∈ group, ¬ x.1.Overloads m := by
    intro group hgroup x hx hxm
    obtain ⟨first, rest, rfl⟩ := List.exists_cons_of_ne_nil (h.nonempty group hgroup)
    rcases List.mem_cons.mp hx with rfl | hx
    · exact hnew _ hgroup _ rfl hxm
    · have hfirst := (List.pairwise_cons.mp (h.together _ hgroup)).1 x hx
      exact hnew _ hgroup _ rfl (hfirst.trans hxm)
  have hgroups : ∀ {P : List (Member × Nat) → Prop}, (∀ group ∈ groups, P group) →
      P [(m, members.length)] → ∀ group ∈ groups ++ [[(m, members.length)]], P group :=
    fun hall hone => List.forall_mem_append.mpr ⟨hall, List.forall_mem_singleton.mpr hone⟩
  refine ⟨?perm, hgroups h.nonempty (by simp), hgroups h.together (by simp), ?apart,
    hgroups h.inOrder (by simp), ?begins⟩
  case perm =>
    rw [List.zipIdx_append]
    simpa using h.perm.append_right [(m, members.length)]
  case apart =>
    refine List.pairwise_append.mpr ⟨h.apart, by simp, fun group hgroup other hother => ?_⟩
    obtain rfl := List.mem_singleton.mp hother
    simpa using hnone group hgroup
  case begins =>
    refine List.pairwise_append.mpr ⟨h.begins, by simp, fun group hgroup other hother x hx => ?_⟩
    obtain rfl := List.mem_singleton.mp hother
    exact List.forall_mem_singleton.mpr (h.place_lt hgroup (List.mem_of_mem_head? hx))

/-- Overloads, and none but they, share a group. -/
lemma share_iff (h : Grouping members groups) {x y : Member × Nat} (hx : x ∈ members.zipIdx)
    (hy : y ∈ members.zipIdx) (hne : x ≠ y) :
    (∃ group ∈ groups, x ∈ group ∧ y ∈ group) ↔ x.1.Overloads y.1 := by
  constructor
  · rintro ⟨group, hgroup, hx, hy⟩
    have : Std.Symm fun x y : Member × Nat => x.1.Overloads y.1 := ⟨fun _ _ hxy => hxy.symm⟩
    exact (h.together group hgroup).forall hx hy hne
  · intro hxy
    obtain ⟨group, hgroup, hx⟩ := List.mem_flatten.mp (h.perm.mem_iff.mpr hx)
    obtain ⟨other, hother, hy⟩ := List.mem_flatten.mp (h.perm.mem_iff.mpr hy)
    have : Std.Symm fun group other : List (Member × Nat) =>
        ∀ x ∈ group, ∀ y ∈ other, ¬ x.1.Overloads y.1 :=
      ⟨fun _ _ hapart x hx y hy hxy => hapart y hy x hx hxy.symm⟩
    obtain rfl : group = other := by
      by_contra hgroups
      exact h.apart.forall hgroup hother hgroups x hx y hy hxy
    exact ⟨group, hgroup, hx, hy⟩

end Grouping

/-- **Members are grouped**, one after the other. -/
lemma groupMembers_grouping (members : List Member) : ∃ groups, Grouping members groups ∧
    groupMembers members = groups.map (·.map Prod.fst) := by
  induction members using List.reverseRecOn with
  | nil => exact ⟨[], .nil, rfl⟩
  | append_singleton members m ih =>
      obtain ⟨groups, hgrouping, hgroups⟩ := ih
      have hstep : groupMembers (members ++ [m]) = addToGroups m (groupMembers members) :=
        List.foldl_append ..
      rw [hstep, hgroups]
      rcases addToGroups_cases m (groups.map (·.map Prod.fst)) with
        ⟨before, group, after, hsplit, hjoins, hadd⟩ | ⟨hnone, hadd⟩
      · obtain ⟨before, rest, rfl, rfl, hrest⟩ := List.map_eq_append_iff.mp hsplit
        obtain ⟨group, after, rfl, rfl, rfl⟩ := List.map_eq_cons_iff.mp hrest
        obtain ⟨first, rest, rfl⟩ :=
          List.exists_cons_of_ne_nil (hgrouping.nonempty group (by simp))
        exact ⟨_, hgrouping.join (joins_iff.mp hjoins), by rw [hadd]; simp⟩
      · refine ⟨_, hgrouping.begin fun group hgroup x hx hxm => ?_, by rw [hadd]; simp⟩
        obtain ⟨rest, rfl⟩ : ∃ rest, group = x :: rest := by
          cases group with
          | nil => cases hx
          | cons first rest => exact ⟨rest, by rw [Option.some.inj hx]⟩
        have hjoins := hnone _ (List.mem_map_of_mem hgroup)
        rw [List.map_cons, joins_iff.mpr hxm] at hjoins
        cases hjoins

/-- The members of a group are overloads of one another. -/
lemma overloads_of_mem_groupMembers {members group : List Member}
    (hgroup : group ∈ groupMembers members) : group.Pairwise Member.Overloads := by
  obtain ⟨groups, hgrouping, hgroups⟩ := groupMembers_grouping members
  obtain ⟨placed, hplaced, rfl⟩ := List.mem_map.mp (hgroups ▸ hgroup)
  exact List.pairwise_map.mpr (hgrouping.together placed hplaced)

/-! ## Groups that are merged -/

/-- **What merging a group comes to.**  A member that is alone stays as it is.  Several members become
one: the first of them, with what all their signatures are merged into. -/
inductive MergesGroup (s t : Session) : List Member → MemberGroup → Prop
  | alone (m : Member) : t = s → MergesGroup s t [m] (.single m)
  | together {first second : Member} {rest : List Member} {key : OverloadKey} {sig whole : Signature}
      {sigs : List Signature} {kind : MemberKind} (hkey : OverloadKey.of? first = some key)
      (hsigs : (first :: second :: rest).filterMap Member.signature? = sig :: sigs)
      (hwhole : (mergeSignatures sig sigs).exec (s.pointAt first.span) = (.ok whole, t))
      (hkind : first.kind.withSignature? whole ((first :: second :: rest).all isOptionalMethod) =
        some kind) :
      MergesGroup s t (first :: second :: rest) (.merged key (first :: second :: rest)
        ((first :: second :: rest).map (·.text t.table)) { first with kind })

/-- What has an overload key has a signature. -/
lemma OverloadKey.exists_signature {m : Member} {key : OverloadKey}
    (h : OverloadKey.of? m = some key) : ∃ sig, m.signature? = some sig := by
  unfold OverloadKey.of? at h
  unfold Member.signature?
  cases hkind : m.kind <;> simp [hkind, MemberKind.signature?] at h ⊢

/-- Merging overloads that succeeds comes to what is said. -/
lemma mergesGroup_of_exec {group : List Member} (hgroup : group.Pairwise Member.Overloads)
    {s t : Session} {merged : MemberGroup} (hrun : (mergeGroup group).exec s = (.ok merged, t)) :
    MergesGroup s t group merged := by
  rcases group with _ | ⟨first, _ | ⟨second, rest⟩⟩
  · cases hrun
  · have halone : (mergeGroup [first]).exec s = (.ok (.single first), s) := by
      cases hkey : OverloadKey.of? first <;> simp only [mergeGroup, hkey] <;> rfl
    obtain ⟨hmerged, rfl⟩ := Prod.mk.inj (halone.symm.trans hrun)
    obtain rfl := Except.ok.inj hmerged
    exact .alone first rfl
  · have hfirst := (List.pairwise_cons.mp hgroup).1 second List.mem_cons_self
    obtain ⟨key, hkey⟩ := Option.ne_none_iff_exists'.mp hfirst.1
    obtain ⟨sig, hsig⟩ := OverloadKey.exists_signature hkey
    have hsigs : (first :: second :: rest).filterMap Member.signature? =
        sig :: (second :: rest).filterMap Member.signature? :=
      List.filterMap_cons_some hsig
    simp only [mergeGroup, hkey, hsigs] at hrun
    rw [exec_bind, exec_modify, next] at hrun
    obtain ⟨whole, u, hwhole, hrun⟩ := exec_bind_ok hrun
    obtain ⟨kind, hkind⟩ :=
      withSignature?_isSome hkey whole ((first :: second :: rest).all isOptionalMethod)
    rw [hkind] at hrun
    obtain ⟨hmerged, rfl⟩ := Prod.mk.inj hrun
    obtain rfl := Except.ok.inj hmerged
    exact .together hkey hsigs hwhole hkind

/-- **What stands for a group**: the member itself, if it is alone, and otherwise one member for
all of the group. -/
def MemberGroup.StandsFor (group : List Member) (merged : MemberGroup) : Prop :=
  match group with
  | [m] => merged = .single m
  | _ => ∃ key docs member, merged = .merged key group docs member

lemma MergesGroup.standsFor {s t : Session} {group : List Member} {merged : MemberGroup}
    (h : MergesGroup s t group merged) : merged.StandsFor group := by
  cases h with
  | alone m => rfl
  | together => exact ⟨_, _, _, rfl⟩

/-- **Groups part the members.**  Every member, in its place, is in exactly one group.  Two members
share a group if and only if they are overloads of one another.  Members keep their order inside of
a group, and groups stand in the order of their first members.  If the groups can be merged, each of
them becomes one, in the same order; a member that is alone stays as it is. -/
theorem groupMembers_partition (members : List Member) :
    ∃ groups : List (List (Member × Nat)),
      groupMembers members = groups.map (·.map Prod.fst) ∧
      groups.flatten.Perm members.zipIdx ∧
      (∀ x ∈ members.zipIdx, ∀ y ∈ members.zipIdx, x ≠ y →
        ((∃ group ∈ groups, x ∈ group ∧ y ∈ group) ↔ x.1.Overloads y.1)) ∧
      (∀ group ∈ groups, group ≠ [] ∧ group.Pairwise fun x y => x.2 < y.2) ∧
      (groups.Pairwise fun group other => ∀ x ∈ group.head?, ∀ y ∈ other.head?, x.2 < y.2) ∧
      ∀ s merged t, (mergeMembers members).exec s = (.ok merged, t) →
        List.Forall₂ (fun group merged => merged.StandsFor group) (groupMembers members) merged := by
  obtain ⟨groups, hgrouping, hgroups⟩ := groupMembers_grouping members
  refine ⟨groups, hgroups, hgrouping.perm, fun x hx y hy => hgrouping.share_iff hx hy,
    fun group hgroup => ⟨hgrouping.nonempty group hgroup, hgrouping.inOrder group hgroup⟩, ?_, ?_⟩
  · exact hgrouping.begins.imp fun hbegins x hx y hy => hbegins x hx y (List.mem_of_mem_head? hy)
  · intro s merged t hrun
    have hmerges : (mergeMembers members).Yields (fun _ => True) (fun _ => True)
        (List.Forall₂ (fun group merged => merged.StandsFor group) (groupMembers members)) :=
      .forall₂_mapM fun group hgroup => .of_exec (fun _ _ => trivial) (fun _ _ _ _ => trivial)
        fun s _ merged t hrun =>
          (mergesGroup_of_exec (overloads_of_mem_groupMembers hgroup) hrun).standsFor
    exact hmerges.of_ok trivial hrun

/-- Two methods of one name, with a property, another method and a static one among them. -/
theorem groupMembers_partition_methods :
    let method (name : String) (isStatic : Bool) : Member :=
      ⟨some name, .method ⟨[], [], .void⟩ false, isStatic, Span.none⟩
    let property : Member := ⟨some "f", .property .any false false, false, Span.none⟩
    let members := [method "f" false, property, method "g" false, method "f" false, method "f" true]
    ∃ merged t, (mergeMembers members).exec (.start {} .batch .untyped) = (.ok merged, t) ∧
      merged.length = 4 ∧
      List.Forall₂ (fun group merged => merged.StandsFor group)
        [[method "f" false, method "f" false], [property], [method "g" false], [method "f" true]]
        merged := by
  intro method property members
  obtain ⟨merged, t, hrun, hlength⟩ : ∃ merged t,
      (mergeMembers members).exec (.start {} .batch .untyped) = (.ok merged, t) ∧
        merged.length = 4 :=
    ⟨_, _, Prod.ext rfl rfl, rfl⟩
  obtain ⟨-, -, -, -, -, -, hmerges⟩ := groupMembers_partition members
  exact ⟨merged, t, hrun, hlength, hmerges _ _ _ hrun⟩

end Interop
