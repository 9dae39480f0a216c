import Interop.Proofs.CommentOptions
import Interop.Proofs.Overloads
import Interop.Proofs.UnionKeys

/-!
# Merging is a homomorphism

Types are merged by their keys: each component is kept under its key unless the key is there.  What
results is a function of the components alone, a list without repetition in the order of first
occurrence, although names are given and diagnostics reported while the keys are found.  The type
that stands for a merged list counts as the types that were kept, so it may take the place of the
list wherever that is merged with others.

* `DistinctTypes.keys_collect`, `DistinctTypes.collect_types` — keeping types by their keys.
* `Work.Repeats.known` — what was computed once gives the same result from then on.
* `mergeWithin` — merging with a bound; `Session.Merged` — what it comes to, from then on.
* **`merging_homomorphic`** — the merged keys, and merging representatives in place of lists.
-/

namespace Interop

open Work

/-! ## Keeping types by their keys -/

/-- One more element is dropped if it is there already. -/
lemma eraseDups_concat {α : Type} [BEq α] [LawfulBEq α] (xs : List α) (x : α) :
    (xs ++ [x]).eraseDups = if x ∈ xs then xs.eraseDups else xs.eraseDups ++ [x] := by
  rw [List.eraseDups_append]
  by_cases hx : x ∈ xs <;> simp [List.removeAll, hx, List.eraseDups_cons]

lemma nodup_eraseDups {α : Type} [BEq α] [LawfulBEq α] (xs : List α) : xs.eraseDups.Nodup := by
  induction xs using List.reverseRecOn with
  | nil => simp
  | append_singleton xs x ih =>
      rw [eraseDups_concat]
      split_ifs with hx
      · exact ih
      · exact List.nodup_append_comm.mp
          (List.nodup_cons.mpr ⟨fun hmem => hx (List.mem_eraseDups.mp hmem), ih⟩)

lemma eraseDups_of_nodup {α : Type} [BEq α] [LawfulBEq α] {xs : List α} (h : xs.Nodup) :
    xs.eraseDups = xs := by
  induction xs using List.reverseRecOn with
  | nil => rfl
  | append_singleton xs x ih =>
      obtain ⟨hxs, -, hx⟩ := List.nodup_append.mp h
      rw [eraseDups_concat, if_neg fun hmem => hx x hmem x List.mem_cons_self rfl, ih hxs]

lemma eraseDups_perm {α : Type} [BEq α] [LawfulBEq α] {xs ys : List α} (h : xs.Perm ys) :
    xs.eraseDups.Perm ys.eraseDups :=
  (List.perm_ext_iff_of_nodup (nodup_eraseDups xs) (nodup_eraseDups ys)).mpr fun x => by
    rw [List.mem_eraseDups, List.mem_eraseDups, h.mem_iff]

namespace DistinctTypes

variable {key key' : Ty → String} {d : DistinctTypes} {text : String} {ty : Ty}

lemma insert_of_mem (h : text ∈ d.keys) : d.insert text ty = d :=
  if_pos (List.contains_iff_mem.mpr h)

lemma insert_of_not_mem (h : text ∉ d.keys) :
    d.insert text ty = ⟨d.entries ++ [(text, ty)]⟩ :=
  if_neg fun hmem => h (List.contains_iff_mem.mp hmem)

lemma collect_append (d : DistinctTypes) (tys more : List Ty) :
    d.collect key (tys ++ more) = (d.collect key tys).collect key more :=
  List.foldl_append ..

lemma collect_concat (d : DistinctTypes) (tys : List Ty) (ty : Ty) :
    d.collect key (tys ++ [ty]) = (d.collect key tys).insert (key ty) ty :=
  collect_append d tys [ty]

lemma collect_congr {tys : List Ty} (h : ∀ ty ∈ tys, key ty = key' ty) :
    d.collect key tys = d.collect key' tys :=
  List.foldl_ext _ _ _ fun d ty hty => by rw [h ty hty]

lemma mem_keys_collect {tys : List Ty} :
    text ∈ (d.collect key tys).keys ↔ text ∈ d.keys ∨ text ∈ tys.map key := by
  induction tys using List.reverseRecOn with
  | nil => simp [collect]
  | append_singleton tys ty ih =>
      rw [collect_concat, mem_keys_insert, ih, List.map_append, List.mem_append, or_assoc]
      simp

/-- **The keys of types that were kept** are all their keys without repetition. -/
lemma keys_collect (key : Ty → String) (tys : List Ty) :
    (collect key {} tys).keys = (tys.map key).eraseDups := by
  induction tys using List.reverseRecOn with
  | nil => rfl
  | append_singleton tys ty ih =>
      have hmem : key ty ∈ (collect key {} tys).keys ↔ key ty ∈ tys.map key := by
        rw [mem_keys_collect, or_iff_right]
        exact List.not_mem_nil
      rw [collect_concat, List.map_append, List.map_singleton, eraseDups_concat]
      split_ifs with hold
      · rw [insert_of_mem (hmem.mpr hold), ih]
      · rw [insert_of_not_mem fun h => hold (hmem.mp h), ← ih]
        simp [keys]

/-- Of the types with one key the first is kept. -/
lemma find?_of_mem_collect {tys : List Ty} {entry : String × Ty}
    (h : entry ∈ (collect key {} tys).entries) :
    tys.find? (fun ty => key ty == entry.1) = some entry.2 := by
  induction tys using List.reverseRecOn with
  | nil => cases h
  | append_singleton tys ty ih =>
      rw [collect_concat] at h
      rw [List.find?_append]
      by_cases hold : key ty ∈ (collect key {} tys).keys
      · rw [insert_of_mem hold] at h
        rw [ih h, Option.some_or]
      · rw [insert_of_not_mem hold] at h
        rcases List.mem_append.mp h with h | h
        · rw [ih h, Option.some_or]
        · obtain rfl := List.mem_singleton.mp h
          have hnone : tys.find? (fun other => key other == key ty) = none := by
            rw [List.find?_eq_none]
            intro other hother heq
            refine hold (mem_keys_collect.mpr (Or.inr (List.mem_map.mpr ⟨other, hother, ?_⟩)))
            exact beq_iff_eq.mp heq
          simp [hnone]

/-- **What was kept of types stands for all of them** wherever they are kept once more. -/
lemma collect_types (key : Ty → String) (d : DistinctTypes) (tys : List Ty) :
    d.collect key (collect key {} tys).types = d.collect key tys := by
  induction tys using List.reverseRecOn with
  | nil => rfl
  | append_singleton tys ty ih =>
      rw [collect_concat, collect_concat]
      by_cases hold : key ty ∈ (collect key {} tys).keys
      · have hkept : key ty ∈ (d.collect key tys).keys := by
          rw [mem_keys_collect] at hold ⊢
          exact Or.inr (hold.resolve_left List.not_mem_nil)
        rw [insert_of_mem hold, insert_of_mem hkept, ih]
      · rw [insert_of_not_mem hold, types, List.map_append, List.map_singleton, collect_concat]
        exact congrArg (insert · _ _) ih

end DistinctTypes

/-! ## What is known once it was computed -/

namespace Session

variable {s t u : Session} {hidden : List String}

lemma Recalls.refl (s : Session) : s.Recalls hidden s :=
  (Grows.refl s).recalls

lemma Recalls.trans (h : s.Recalls hidden t) (k : t.Recalls hidden u) : s.Recalls hidden u :=
  ⟨h.toExtends.trans k.toExtends, fun name hname =>
    (k.inScope name hname).trans (h.inScope name hname)⟩

/-- What merging reads is the same in all sessions that know what was done. -/
lemma Recalls.fixes (s : Session) : s.Fixes (s.Recalls []) :=
  ⟨fun _ h => h.table, fun _ h => h.expanding, fun _ h => h.policy, fun _ h => { h with },
    fun _ h => { h with }⟩

end Session

namespace Session

/-- **What is known of a computation**: it gives a result in every session that knows what was done,
and does no more than add to that session. -/
def Knows {α : Type} (s : Session) (w : Work α) (a : α) : Prop :=
  ∀ t, s.Recalls [] t → (w.exec t).1 = .ok a ∧ t.Grows (w.exec t).2

namespace Knows

variable {α : Type} {w : Work α} {a : α} {s t : Session}

/-- What is known stays known. -/
lemma mono (h : s.Knows w a) (hst : s.Recalls [] t) : t.Knows w a :=
  fun u hu => h u (hst.trans hu)

lemma gives (h : s.Knows w a) : w.Gives (s.Recalls []) a := by
  intro t ht
  obtain ⟨hresult, hgrows⟩ := h t ht
  refine ⟨ht.trans_grows hgrows, fun b hb => ?_, fun failure hfailure => ?_⟩
  · exact (Except.ok.inj (hresult.symm.trans hb)).symm
  · cases hresult.symm.trans hfailure

end Knows

end Session

namespace Work

variable {α β : Type} {w : Work α} {a b : α} {s : Session}

lemma Gives.unique {I : Session → Prop} (h : w.Gives I a) (h' : w.Gives I b) (hs : I s) : a = b :=
  Except.ok.inj ((h.exec hs).symm.trans (h'.exec hs))

/-- **What was computed once gives the same result from then on.** -/
lemma Repeats.known {Q : α → Prop} (h : w.Repeats s.table [] Q) :
    w.Ends s fun a t => t.Knows w a := by
  intro a t hrun
  obtain ⟨hgrows, -, hagain⟩ := h s a t rfl hrun
  refine ⟨hgrows, fun u hu => ⟨hagain u hu, ?_⟩⟩
  rcases hrun' : w.exec u with ⟨failure | b, v⟩
  · cases (congrArg Prod.fst hrun').symm.trans (hagain u hu)
  · exact (h u b v (hu.table.trans hgrows.table) hrun').1

lemma Ends.detached {Q : α → Session → Prop} (h : w.Ends s.detach Q) :
    (Work.detached w).Ends s fun a t => ∃ u, Q a u ∧ t = u.attach := by
  intro a t hrun
  rcases hinner : w.exec s.detach with ⟨out, u⟩
  have hrun : (out, u.attach) = (.ok a, t) := by
    rw [← hrun]
    show _ = ((w.exec s.detach).1, (w.exec s.detach).2.attach)
    rw [hinner]
  obtain ⟨rfl, rfl⟩ := Prod.mk.inj hrun
  obtain ⟨hgrows, ha⟩ := h a u hinner
  exact ⟨{ hgrows with }, u, ha, rfl⟩

end Work

/-! ## Merging -/

/-- Types merged with a bound on how deep they may lie inside one another. -/
def mergeWithin (depth : Nat) (tys : List Ty) : Work DistinctTypes :=
  DistinctTypes.ofTypes (renderWithin depth) depth tys

lemma mergeWithin_append (depth : Nat) (xs ys : List Ty) : mergeWithin depth (xs ++ ys) =
    mergeWithin depth xs >>= ys.foldlM (DistinctTypes.add (renderWithin depth) depth) :=
  List.foldlM_append ..

section

variable {depth : Nat} {ty : Ty} {tys : List Ty} {s t : Session}

/-- Once a key was found, it is known what the type is rendered as. -/
lemma key_known (depth : Nat) (ty : Ty) (s : Session) : ((renderWithin depth).key ty).Ends s
    fun _ t => ∃ r, t.Knows (renderWithin depth ty .key) r := by
  have hrepeats : (renderWithin depth ty .key).Repeats s.detach.table [] fun _ => True :=
    renderWithin_repeats depth (by simp [SymbolTable.AliasesAvoid]) (by simp [Ty.Avoids]) .key
  refine .map (.detached hrepeats.known) ?_
  rintro r _ - ⟨u, hu, rfl⟩
  exact ⟨r, fun v hv => hu v { hv with }⟩

/-- The types that a type counts as, none where it leads back to itself. -/
def Session.partsOf (s : Session) (depth : Nat) (ty : Ty) : List Ty :=
  (components s.table s.expanding depth ty).getD []

/-- What a type is rendered as for keys, nothing where that fails. -/
def Session.keyed (s : Session) (depth : Nat) (ty : Ty) : Rendered :=
  ((renderWithin depth ty .key).exec s).1.toOption.getD default

/-- The key of a type, empty where there is none. -/
def Session.keyOf (s : Session) (depth : Nat) (ty : Ty) : String :=
  (s.keyed depth ty).text

/-- **It is known what a type counts as**, and what that is rendered as for keys. -/
structure Session.KnowsParts (s : Session) (depth : Nat) (ty : Ty) : Prop where
  found : components s.table s.expanding depth ty = some (s.partsOf depth ty)
  known : ∀ part ∈ s.partsOf depth ty, s.Knows (renderWithin depth part .key) (s.keyed depth part)

namespace Session

lemma Knows.keyed {r : Rendered} (h : s.Knows (renderWithin depth ty .key) r) :
    s.keyed depth ty = r := by
  rw [Session.keyed, (h s (.refl s)).1]
  rfl

lemma Knows.keyOf (h : s.Knows (renderWithin depth ty .key) (s.keyed depth ty)) :
    ((renderWithin depth).key ty).Gives (s.Recalls []) (s.keyOf depth ty) :=
  .bind ((Recalls.fixes s).detached h.gives) (.pure _)

lemma KnowsParts.of_components {parts : List Ty}
    (hfound : components s.table s.expanding depth ty = some parts)
    (hknown : ∀ part ∈ parts, ∃ r, s.Knows (renderWithin depth part .key) r) :
    s.KnowsParts depth ty := by
  have hsame : s.partsOf depth ty = parts := by rw [partsOf, hfound, Option.getD_some]
  refine ⟨hsame ▸ hfound, fun part hpart => ?_⟩
  obtain ⟨r, hr⟩ := hknown part (hsame ▸ hpart)
  exact hr.keyed ▸ hr

/-- What is known of a type stays so, and stays known. -/
lemma KnowsParts.recalls (h : s.KnowsParts depth ty) (hst : s.Recalls [] t) :
    t.KnowsParts depth ty ∧ t.partsOf depth ty = s.partsOf depth ty ∧
      ∀ part ∈ s.partsOf depth ty, t.keyOf depth part = s.keyOf depth part := by
  have hfound : components t.table t.expanding depth ty = some (s.partsOf depth ty) := by
    rw [hst.table, hst.expanding, h.found]
  refine ⟨.of_components hfound fun part hpart => ⟨_, (h.known part hpart).mono hst⟩, ?_, ?_⟩
  · rw [partsOf, hfound, Option.getD_some]
  · exact fun part hpart => congrArg Rendered.text ((h.known part hpart).mono hst).keyed

end Session

/-- Once a type was added, its parts are known. -/
lemma add_known (depth : Nat) (d : DistinctTypes) (ty : Ty) (s : Session) :
    (d.add (renderWithin depth) depth ty).Ends s fun _ t => t.KnowsParts depth ty := by
  refine .get_bind ?_
  cases hparts : components s.table s.expanding depth ty with
  | none => exact .throw _
  | some parts =>
      refine (Ends.foldlM (R := Eq) (I := fun _ _ => True)
        (C := fun part _ t => ∃ r, t.Knows (renderWithin depth part .key) r) trivial ?_).weaken ?_
      · refine fun d u _ part _ => (key_known depth part u).map fun _ v hgrows hpart => ?_
        refine ⟨trivial, fun _ heq => heq ▸ hpart, fun other hother => ?_⟩
        exact hother.imp fun r hr => hr.mono hgrows.recalls
      · rintro d t hgrows ⟨-, hknown, -⟩
        refine .of_components ?_ fun part hpart => hknown part hpart part rfl
        rw [hgrows.table, hgrows.expanding, hparts]

/-- **What merging types comes to**: the types that they count as, each under the key that it is
known to have. -/
structure Session.Merged (s : Session) (depth : Nat) (tys : List Ty) (d : DistinctTypes) :
    Prop where
  known : ∀ ty ∈ tys, s.KnowsParts depth ty
  collected : d = DistinctTypes.collect (s.keyOf depth) {} (tys.flatMap (s.partsOf depth))

namespace Session.Merged

variable {d e : DistinctTypes} {xs ys : List Ty}

lemma nil : s.Merged depth [] {} :=
  ⟨by simp, rfl⟩

/-- What was merged stays so. -/
lemma recalls (h : s.Merged depth tys d) (hst : s.Recalls [] t) : t.Merged depth tys d := by
  refine ⟨fun ty hty => ((h.known ty hty).recalls hst).1, ?_⟩
  have hparts : tys.flatMap (t.partsOf depth) = tys.flatMap (s.partsOf depth) :=
    List.flatMap_congr fun ty hty => ((h.known ty hty).recalls hst).2.1
  rw [hparts, h.collected]
  refine DistinctTypes.collect_congr fun part hpart => ?_
  obtain ⟨ty, hty, hpart⟩ := List.mem_flatMap.mp hpart
  exact (((h.known ty hty).recalls hst).2.2 part hpart).symm

lemma keyOf (h : s.Merged depth tys d) {part : Ty} (hpart : part ∈ tys.flatMap (s.partsOf depth)) :
    s.Knows (renderWithin depth part .key) (s.keyed depth part) := by
  obtain ⟨ty, hty, hpart⟩ := List.mem_flatMap.mp hpart
  exact (h.known ty hty).known part hpart

/-- Types that were merged are merged again in the same way. -/
lemma gives (h : s.Merged depth tys d) : (mergeWithin depth tys).Gives (s.Recalls []) d := by
  rw [h.collected]
  exact gives_ofTypes (Recalls.fixes s) _ (fun ty hty => (h.known ty hty).found)
    fun part hpart => (h.keyOf hpart).keyOf

/-- What is kept is a component that is merged. -/
lemma isComponent (h : s.Merged depth tys d) {part : Ty} (hpart : part ∈ d.types) :
    part ∈ tys.flatMap (s.partsOf depth) ∧ part.IsComponent s.table s.expanding := by
  rw [h.collected] at hpart
  have hmem := (DistinctTypes.Collected.ofList _ _).mem_of_mem_types hpart
  obtain ⟨ty, hty, hmem'⟩ := List.mem_flatMap.mp hmem
  exact ⟨hmem, isComponent_of_components (h.known ty hty).found part hmem'⟩

/-- **One more type.** -/
lemma add (h : s.Merged depth tys d) (ty : Ty) :
    (d.add (renderWithin depth) depth ty).Ends s fun d' t => t.Merged depth (tys ++ [ty]) d' := by
  intro d' t hrun
  have hrepeats : (d.add (renderWithin depth) depth ty).Repeats s.table [] (·.Avoid []) :=
    DistinctTypes.add_repeats (renderWithin_repeats depth) (by simp [SymbolTable.AliasesAvoid])
      depth (by simp [DistinctTypes.Avoid, Ty.Avoids]) (by simp [Ty.Avoids])
  obtain ⟨hgrows, hagain⟩ := hrepeats.known d' t hrun
  obtain ⟨-, hty⟩ := add_known depth d ty s d' t hrun
  have hold := h.recalls hgrows.recalls
  have hgives : (d.add (renderWithin depth) depth ty).Gives (t.Recalls [])
      (d.collect (t.keyOf depth) (t.partsOf depth ty)) := by
    refine Yields.get_bind fun u hu => ?_
    rw [hu.table, hu.expanding, hty.found]
    exact Gives.foldlM d fun d part hpart => .bind (hty.known part hpart).keyOf (.pure _)
  refine ⟨hgrows, List.forall_mem_append.mpr ⟨hold.known, List.forall_mem_singleton.mpr hty⟩, ?_⟩
  rw [hagain.gives.unique hgives (.refl t), List.flatMap_append, DistinctTypes.collect_append,
    ← hold.collected, List.flatMap_singleton]

/-- **More types, one after the other.** -/
lemma foldlM (more : List Ty) (h : s.Merged depth tys d) :
    (more.foldlM (DistinctTypes.add (renderWithin depth) depth) d).Ends s
      fun d' t => t.Merged depth (tys ++ more) d' :=
  .foldlM_through (I := fun tys d s => s.Merged depth tys d) (fun _ _ _ ty h => h.add ty) more h

/-- The type that stands for a set counts as the types in it. -/
lemma partsOf_representative (h : s.Merged depth tys d) (hdepth : 2 ≤ depth) :
    (∀ ty ∈ d.representative?.toList,
        components s.table s.expanding depth ty = some (s.partsOf depth ty)) ∧
      d.representative?.toList.flatMap (s.partsOf depth) = d.types := by
  obtain ⟨steps, rfl⟩ := Nat.exists_eq_add_of_le' hdepth
  cases hrepresentative : d.representative? with
  | none =>
      unfold DistinctTypes.representative? at hrepresentative
      rcases htypes : d.types with _ | ⟨first, _ | ⟨second, rest⟩⟩
      · simp
      all_goals
        rw [htypes] at hrepresentative
        cases hrepresentative
  | some ty =>
      have hparts := components_ofUnion hrepresentative
        (fun part hpart => (h.isComponent hpart).2) steps
      simp [partsOf, hparts]

/-- **Representatives take the place of the types that were merged.** -/
lemma gives_representatives (hdepth : 2 ≤ depth) (hd : s.Merged depth xs d)
    (he : s.Merged depth ys e) :
    (mergeWithin depth (d.representative?.toList ++ e.representative?.toList)).Gives (s.Recalls [])
      (d.collect (s.keyOf depth) (ys.flatMap (s.partsOf depth))) := by
  obtain ⟨hfound, hparts⟩ := hd.partsOf_representative hdepth
  obtain ⟨hfound', hparts'⟩ := he.partsOf_representative hdepth
  have hsame : d.collect (s.keyOf depth) (ys.flatMap (s.partsOf depth)) =
      DistinctTypes.collect (s.keyOf depth) {} ((d.representative?.toList ++
        e.representative?.toList).flatMap (s.partsOf depth)) := by
    rw [List.flatMap_append, hparts, hparts', DistinctTypes.collect_append]
    rw [he.collected, DistinctTypes.collect_types, hd.collected, DistinctTypes.collect_types]
  rw [hsame]
  refine gives_ofTypes (Recalls.fixes s) _ (List.forall_mem_append.mpr ⟨hfound, hfound'⟩)
    fun part hpart => ?_
  rw [List.flatMap_append, hparts, hparts'] at hpart
  rcases List.mem_append.mp hpart with hpart | hpart
  · exact (hd.keyOf (hd.isComponent hpart).1).keyOf
  · exact (he.keyOf (he.isComponent hpart).1).keyOf

end Session.Merged

/-- **What merging that has succeeded came to.** -/
lemma mergeWithin_ends (depth : Nat) (tys : List Ty) (s : Session) :
    (mergeWithin depth tys).Ends s fun d t => t.Merged depth tys d :=
  Session.Merged.nil.foldlM tys

/-- Types are merged in the same way whatever was kept before. -/
lemma foldlM_add_agrees (depth : Nat) (d : DistinctTypes) (tys : List Ty) :
    Agrees (fun _ _ => True) (tys.foldlM (DistinctTypes.add (renderWithin depth) depth) d)
      (mergeWithin depth tys) := by
  refine .foldlM trivial fun d e _ ty _ => .same_bind fun s => ?_
  cases components s.table s.expanding depth ty with
  | none => exact .throw _
  | some parts => exact .foldlM trivial fun d e _ part _ => .same_bind fun _ => .pure trivial

/-- **Two lists merged one after the other** come to what their representatives are merged into. -/
lemma gives_append {xs ys : List Ty} {d e whole : DistinctTypes} {u : Session} (hdepth : 2 ≤ depth)
    (hfirst : (mergeWithin depth xs).exec s = (.ok d, t))
    (hsecond : (mergeWithin depth ys).exec t = (.ok e, u))
    (hwhole : (mergeWithin depth (xs ++ ys)).exec s = (.ok whole, u)) :
    (mergeWithin depth (d.representative?.toList ++ e.representative?.toList)).Gives (u.Recalls [])
      whole := by
  obtain ⟨-, hd⟩ := mergeWithin_ends depth xs s d t hfirst
  obtain ⟨hgrows, he⟩ := mergeWithin_ends depth ys t e u hsecond
  obtain ⟨-, hmerged⟩ := mergeWithin_ends depth (xs ++ ys) s whole u hwhole
  have hd := hd.recalls hgrows.recalls
  have hsame := hmerged.collected
  rw [List.flatMap_append, DistinctTypes.collect_append, ← hd.collected] at hsame
  rw [hsame]
  exact hd.gives_representatives hdepth he

end

/-- **Merging is a homomorphism**, in every session and with every bound that is at least two.  The
keys of merged types are those of all their components without repetition, in the order in which
they came first, each with the first type that has it; they are the keys that the components have
from then on, in every session that knows what was done.  Merging two lists one after the other
fails where merging their representatives does, and comes to the same otherwise; an absent
representative adds nothing.  So a representative on its own is merged into what it represents. -/
theorem merging_homomorphic (s : Session) {depth : Nat} (hdepth : 2 ≤ depth) :
    (∀ tys d t, (mergeWithin depth tys).exec s = (.ok d, t) →
      ∃ (parts : Ty → List Ty) (key : Ty → String),
        (∀ ty ∈ tys, components s.table s.expanding depth ty = some (parts ty)) ∧
        d.keys = ((tys.flatMap parts).map key).eraseDups ∧
        (∀ entry ∈ d.entries,
          (tys.flatMap parts).find? (fun part => key part == entry.1) = some entry.2) ∧
        ∀ u, t.Recalls [] u →
          (∀ part ∈ tys.flatMap parts,
            (((renderWithin depth).key part).exec u).1 = .ok (key part)) ∧
          ((mergeWithin depth tys).exec u).1 = .ok d ∧
          ((mergeWithin depth d.representative?.toList).exec u).1 = .ok d) ∧
    ∀ xs ys, ((mergeWithin depth (xs ++ ys)).exec s).1 = ((do
        let d ← mergeWithin depth xs
        let e ← mergeWithin depth ys
        mergeWithin depth (d.representative?.toList ++ e.representative?.toList) :
          Work DistinctTypes).exec s).1 := by
  refine ⟨fun tys d t hrun => ?keys, fun xs ys => ?append⟩
  case keys =>
    obtain ⟨hgrows, hmerged⟩ := mergeWithin_ends depth tys s d t hrun
    refine ⟨t.partsOf depth, t.keyOf depth, fun ty hty => ?_, ?_, ?_, fun u hu => ⟨?_, ?_, ?_⟩⟩
    · rw [← hgrows.table, ← hgrows.expanding]
      exact (hmerged.known ty hty).found
    · rw [hmerged.collected, DistinctTypes.keys_collect]
    · intro entry hentry
      rw [hmerged.collected] at hentry
      exact DistinctTypes.find?_of_mem_collect hentry
    · exact fun part hpart => (hmerged.keyOf hpart).keyOf.exec hu
    · exact hmerged.gives.exec hu
    · have halone := hmerged.gives_representatives hdepth .nil
      rw [show (({} : DistinctTypes).representative?).toList = [] from rfl, List.append_nil]
        at halone
      exact halone.exec hu
  case append =>
    rw [mergeWithin_append, exec_bind, exec_bind]
    rcases hfirst : (mergeWithin depth xs).exec s with ⟨failure | d, t⟩
    · rfl
    have hwhole : (mergeWithin depth (xs ++ ys)).exec s =
        (ys.foldlM (DistinctTypes.add (renderWithin depth) depth) d).exec t := by
      rw [mergeWithin_append, exec_bind, hfirst]
      rfl
    show (Work.exec _ t).1 = (Work.exec (_ >>= _) t).1
    rw [exec_bind]
    rcases (foldlM_add_agrees depth d ys).cases t with
      ⟨failure, u, hrun, hsecond⟩ | ⟨whole, e, u, hrun, hsecond, -⟩
    · rw [hrun, hsecond]
      rfl
    · have hgives := gives_append hdepth hfirst hsecond (hwhole.trans hrun)
      rw [hrun, hsecond]
      exact (hgives.exec (.refl u)).symm

/-- An interface, an alias for it and another type, merged in two lists. -/
theorem merging_homomorphic_box :
    2 ≤ 5 ∧ ((do
        let d ← mergeWithin 5 [.union [.alias 1, .primitive .string]]
        let e ← mergeWithin 5 [.primitive .number, .nominal 0 []]
        mergeWithin 5 (d.representative?.toList ++ e.representative?.toList) :
          Work DistinctTypes).exec boxSession).1 =
      .ok ⟨[("Box", .nominal 0 []), ("String", .primitive .string), ("num", .primitive .number)]⟩ ∧
    ∃ (parts : Ty → List Ty) (key : Ty → String),
      components boxSession.table [] 5 (.union [.alias 1, .primitive .string]) =
        some (parts (.union [.alias 1, .primitive .string])) ∧
      ["Box", "String"] = ((parts (.union [.alias 1, .primitive .string])).map key).eraseDups := by
  obtain ⟨hkeys, happend⟩ := merging_homomorphic boxSession (by decide : 2 ≤ 5)
  refine ⟨by decide, ?_, ?_⟩
  · rw [← happend]
    rfl
  · obtain ⟨parts, key, hparts, hsame, -⟩ :=
      hkeys [.union [.alias 1, .primitive .string]]
        ⟨[("Box", .nominal 0 []), ("String", .primitive .string)]⟩ _ rfl
    rw [List.flatMap_singleton] at hsame
    exact ⟨parts, key, hparts _ List.mem_cons_self, hsame⟩

end Interop
