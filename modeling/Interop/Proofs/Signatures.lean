import Interop.Proofs.DeclaredNames
import Interop.Proofs.Groups
import Interop.Proofs.Positions

/-!
# Signatures that stand for overloads

Signatures are merged one after the other, their parameters, results and type parameters each on
their own.  A merged type mentions no type parameter that none of the types mentions which were
merged into it: on the way types are only taken apart, dropped and replaced by what closed aliases
stand for.  All type parameters that one of the signatures declares are declared by the merged one,
so what is free in it is free in one of them.

The list of type parameters of the first signature is taken over as it is, so one that it lists twice
is listed twice.

* `SymbolTable.PlainAliasesClosed` — aliases without type parameters mention none.
* `Session.Merged.mentions` — merged types; `Signature.Merges` — merged signatures.
* `Signature.Merges.mentions` — no type parameter is left without a declaration.
* **`mergeGroup_stands_for`** — the member that stands for a group.
* `mergeGroup_repeats_generics` — a type parameter that is listed twice.
-/

namespace Interop

open Work

/-! ## Type parameters of merged types -/

/-- **Aliases without type parameters mention none.** -/
def SymbolTable.PlainAliasesClosed (table : SymbolTable) : Prop :=
  ∀ id symbol body, table.get? id = some symbol → symbol.kind = .alias → symbol.typeParams = [] →
    symbol.aliased = some body → body.freeParams = []

lemma SymbolTable.PlainAliasesClosed.empty : PlainAliasesClosed {} :=
  fun _ _ _ hget => by cases hget

section

variable {s t : Session} {depth : Nat} {tys : List Ty} {d : DistinctTypes} {name : String}

/-- The components of a type mention what it mentions. -/
lemma SymbolTable.PlainAliasesClosed.components {table : SymbolTable}
    (htable : table.PlainAliasesClosed) {expanding : List Nat} {steps : Nat} {ty : Ty}
    {parts : List Ty} (h : Interop.components table expanding steps ty = some parts) {part : Ty}
    (hpart : part ∈ parts) : part.freeParams ⊆ ty.freeParams := by
  refine components_keep (P := fun other => other.freeParams ⊆ ty.freeParams) ?looksThrough ?union
    ?intersection h (List.Subset.refl _) part hpart
  case looksThrough =>
    intro other id body hbody _
    obtain ⟨-, -, symbol, hget, hkind, hplain, haliased⟩ := aliasBody?_eq_some.mp hbody
    rw [htable id symbol body hget hkind hplain haliased]
    exact List.nil_subset _
  case union =>
    exact fun members h member hmember name hname =>
      h (Ty.mem_freeParamsAll.mpr ⟨member, hmember, hname⟩)
  case intersection =>
    exact fun members h member hmember name hname =>
      h (Ty.mem_freeParamsAll.mpr ⟨member, hmember, hname⟩)

/-- What a type made of several types mentions, one of them mentions. -/
lemma Ty.mem_freeParams_ofUnion {ty : Ty} (h : Ty.ofUnion tys = some ty)
    (hname : name ∈ ty.freeParams) : ∃ part ∈ tys, name ∈ part.freeParams := by
  rcases tys with _ | ⟨first, _ | ⟨second, rest⟩⟩
  · cases h
  · obtain rfl := Option.some.inj h
    exact ⟨first, List.mem_cons_self, hname⟩
  · obtain rfl := Option.some.inj h
    exact Ty.mem_freeParamsAll.mp hname

/-- **What a merged type mentions**, one of the types mentions that were merged. -/
lemma Session.Merged.mentions (h : s.Merged depth tys d) (htable : s.table.PlainAliasesClosed)
    {other : Ty} (hother : other.freeParams = [])
    (hname : name ∈ (d.representative?.getD other).freeParams) :
    ∃ ty ∈ tys, name ∈ ty.freeParams := by
  cases hrepresentative : d.representative? with
  | none =>
      rw [hrepresentative, Option.getD_none, hother] at hname
      cases hname
  | some whole =>
      rw [hrepresentative, Option.getD_some] at hname
      obtain ⟨part, hpart, hname⟩ := Ty.mem_freeParams_ofUnion hrepresentative hname
      obtain ⟨ty, hty, hpart⟩ := List.mem_flatMap.mp (h.isComponent hpart).1
      exact ⟨ty, hty, htable.components (h.known ty hty).found hpart hname⟩

/-- An argument of a parameter mentions what the parameter does. -/
lemma Param.freeParams_argumentType (p : Param) : p.argumentType.freeParams = p.type.freeParams := by
  obtain ⟨name, type, optional, rest⟩ := p
  cases rest <;> cases type <;> rfl

/-! ## Merged signatures -/

/-- What the parameters and the results of signatures come to. -/
structure Signature.Merging (s : Session) (sigs : List Signature)
    (merged : List Slot × DistinctTypes) : Prop where
  params : Slots.Merge s (sigs.map (·.params)) merged.1
  result : s.Merged depthLimit (sigs.map (·.result)) merged.2

/-- **What signatures are merged into**: the merged positions as parameters, the type that stands for
all results, and the type parameters of the first signature, then those of the others that it does
not list. -/
structure Signature.Merges (s : Session) (first : Signature) (others : List Signature)
    (whole : Signature) : Prop where
  merging : ∃ slots results, Merging s (first :: others) (slots, results) ∧
    whole.params = slots.map Slot.toParam ∧ whole.result = results.representative?.getD .void
  typeParams : whole.typeParams = first.typeParams ++
    (others.flatMap (·.typeParams)).eraseDups.filter fun name => !first.typeParams.contains name

/-- The strings of a list, without repetition in the order in which they come first. -/
lemma distinct_eq_eraseDups (xs : List String) : distinct xs = xs.eraseDups := by
  induction xs using List.reverseRecOn with
  | nil => rfl
  | append_singleton xs x ih =>
      have hstep : distinct (xs ++ [x]) =
          if (distinct xs).contains x then distinct xs else distinct xs ++ [x] :=
        List.foldl_append ..
      rw [hstep, ih, eraseDups_concat]
      simp only [List.contains_iff_mem, List.mem_eraseDups]

/-- One more signature. -/
lemma Signature.Merging.foldIn {sigs : List Signature} {slots : List Slot} {results : DistinctTypes}
    (h : Merging s sigs (slots, results)) (sig : Signature) :
    (Slots.foldIn slots sig.params >>= fun slots =>
      results.add render depthLimit sig.result >>= fun results => pure (slots, results)).Ends s
        fun merged t => Merging t (sigs ++ [sig]) merged := by
  refine .bind (h.params.foldIn sig.params) fun slots' t hgrows hslots => ?_
  refine .map ((h.result.recalls hgrows.recalls).add sig.result) fun results' u hgrows' hresults => ?_
  exact ⟨by simpa using hslots.recalls hgrows'.recalls, by simpa using hresults⟩

/-- **What merging signatures that has succeeded came to.** -/
lemma mergeSignatures_merges (first : Signature) (others : List Signature) (s : Session) :
    (mergeSignatures first others).Ends s fun whole t =>
      Signature.Merges t first others whole := by
  refine .bind (Slots.ofParams_merges first.params s) fun slots t _ hslots => ?_
  refine .bind (mergeWithin_ends depthLimit [first.result] t) fun results u hgrows hresults => ?_
  have hfirst : Signature.Merging u [first] (slots, results) :=
    ⟨hslots.recalls hgrows.recalls, hresults⟩
  refine .map (.foldlM_through (I := fun sigs merged v => Signature.Merging v sigs merged)
    (fun _ _ _ sig h => h.foldIn sig) others hfirst) ?_
  rintro ⟨slots, results⟩ v - hmerging
  exact ⟨⟨slots, results, hmerging, rfl, rfl⟩, by rw [distinct_eq_eraseDups]⟩

/-- The type parameters of all signatures are declared by the one that they are merged into. -/
lemma Signature.Merges.subset_typeParams {first whole : Signature} {others : List Signature}
    (h : Merges s first others whole) :
    ∀ sig ∈ first :: others, sig.typeParams ⊆ whole.typeParams := by
  intro sig hsig name hname
  rw [h.typeParams, List.mem_append]
  rcases List.mem_cons.mp hsig with rfl | hsig
  · exact .inl hname
  · by_cases hfirst : name ∈ first.typeParams
    · exact .inl hfirst
    · refine .inr (List.mem_filter.mpr ⟨List.mem_eraseDups.mpr ?_, by simpa using hfirst⟩)
      exact List.mem_flatMap.mpr ⟨sig, hsig, hname⟩

/-- **Merging leaves no type parameter without a declaration**: what is free in the merged signature
is free in one of those that were merged. -/
lemma Signature.Merges.mentions {first whole : Signature} {others : List Signature}
    (h : Merges s first others whole) (htable : s.table.PlainAliasesClosed)
    (hname : name ∈ whole.freeParams) : ∃ sig ∈ first :: others, name ∈ sig.freeParams := by
  obtain ⟨hfree, hmention⟩ := Signature.mem_freeParams.mp hname
  -- what the merged signature does not declare, none of the others declares
  have hdeclared : ∀ sig ∈ first :: others, name ∉ sig.typeParams :=
    fun sig hsig hmem => hfree (h.subset_typeParams sig hsig hmem)
  obtain ⟨slots, results, hmerging, hparams, hresult⟩ := h.merging
  rcases hmention with ⟨p, hp, hname⟩ | hname
  · rw [hparams] at hp
    obtain ⟨slot, hslot, rfl⟩ := List.mem_map.mp hp
    obtain ⟨i, hi⟩ := List.mem_iff_getElem?.mp hslot
    rw [← Param.freeParams_argumentType, Slot.argumentType_toParam] at hname
    obtain ⟨ty, hty, hname⟩ := (hmerging.params.position i slot hi).types.mentions htable rfl hname
    obtain ⟨params, hlist, q, hq, rfl⟩ := mem_argumentTypes hty
    obtain ⟨sig, hsig, rfl⟩ := List.mem_map.mp hlist
    rw [Param.freeParams_argumentType] at hname
    exact ⟨sig, hsig, Signature.mem_freeParams.mpr ⟨hdeclared sig hsig, .inl ⟨q, hq, hname⟩⟩⟩
  · rw [hresult] at hname
    obtain ⟨ty, hty, hname⟩ := hmerging.result.mentions htable rfl hname
    obtain ⟨sig, hsig, rfl⟩ := List.mem_map.mp hty
    exact ⟨sig, hsig, Signature.mem_freeParams.mpr ⟨hdeclared sig hsig, .inr hname⟩⟩

end

/-! ## Members that stand for a group -/

/-- A list without repetition, then others without those that it has. -/
lemma append_filter_eraseDups {xs : List String} (h : xs.Nodup) (ys : List String) :
    xs ++ ys.eraseDups.filter (fun y => !xs.contains y) = (xs ++ ys).eraseDups := by
  induction ys using List.reverseRecOn with
  | nil => simp [eraseDups_of_nodup h]
  | append_singleton ys y ih =>
      rw [← List.append_assoc, eraseDups_concat, eraseDups_concat, ← ih]
      by_cases hold : y ∈ ys
      · simp [hold]
      · by_cases hfirst : y ∈ xs <;> simp [hold, hfirst]

/-- A member mentions what its signature does. -/
lemma Member.freeParams_of_signature? {m : Member} {sig : Signature} (h : m.signature? = some sig) :
    m.freeParams = sig.freeParams := by
  obtain ⟨name, kind, isStatic, span⟩ := m
  cases kind <;> cases h <;> rfl

/-- A member with another signature is declared under the same name. -/
lemma OverloadKey.of?_withSignature? {m : Member} {sig : Signature} {optional : Bool}
    {kind : MemberKind} (h : m.kind.withSignature? sig optional = some kind) :
    of? { m with kind } = of? m := by
  obtain ⟨name, old, isStatic, span⟩ := m
  cases old <;> cases h <;> rfl

/-- A member that stands for others is an optional method if all of them are. -/
lemma isOptionalMethod_withSignature? {first : Member} {rest : List Member} {sig : Signature}
    {kind : MemberKind}
    (h : first.kind.withSignature? sig ((first :: rest).all isOptionalMethod) = some kind) :
    isOptionalMethod { first with kind } = (first :: rest).all isOptionalMethod := by
  obtain ⟨name, old, isStatic, span⟩ := first
  cases old <;> cases h <;> simp [isOptionalMethod]

/-- **The member that stands for a group** of at least two overloads.  The group is kept as it is,
with the text of each member.  The member that stands for it has its key, the name, the modifier and
the span of the first member, and is optional if all of the group are optional methods.  Its
signature has the type parameters of the first member, then those of the others that are not among
them, each where it comes first; so if the first member lists none twice, those of all members
without repetition.  A type parameter is free in it only if it is free in a member of the group. -/
theorem mergeGroup_stands_for {group : List Member} {key : OverloadKey} {s t : Session}
    {merged : MemberGroup} (hseveral : 2 ≤ group.length)
    (hkey : ∀ m ∈ group, OverloadKey.of? m = some key) (htable : s.table.PlainAliasesClosed)
    (hrun : (mergeGroup group).exec s = (.ok merged, t)) :
    ∃ first rest member sig, group = first :: rest ∧
      merged = .merged key group (group.map (·.text s.table)) member ∧
      OverloadKey.of? member = some key ∧ member.name = first.name ∧
      member.isStatic = first.isStatic ∧ member.span = first.span ∧
      (isOptionalMethod member = true ↔ ∀ m ∈ group, isOptionalMethod m = true) ∧
      member.signature? = some sig ∧
      sig.typeParams = first.generics ++ (rest.flatMap Member.generics).eraseDups.filter
        (fun name => !first.generics.contains name) ∧
      (first.generics.Nodup → sig.typeParams = (group.flatMap Member.generics).eraseDups) ∧
      ∀ name ∈ member.freeParams, ∃ m ∈ group, name ∈ m.freeParams := by
  have hoverloads : group.Pairwise Member.Overloads :=
    List.pairwise_of_forall_mem_list fun m hm n hn =>
      ⟨by rw [hkey m hm]; exact Option.some_ne_none key, by rw [hkey m hm, hkey n hn]⟩
  cases mergesGroup_of_exec hoverloads hrun with
  | alone m => exact absurd hseveral (by simp)
  | @together first second rest other sig whole sigs kind hfirst hsigs hwhole hkind =>
      obtain rfl := Option.some.inj ((hkey first List.mem_cons_self).symm.trans hfirst)
      obtain ⟨hgrows, hmerges⟩ := mergeSignatures_merges sig sigs _ whole t hwhole
      have hsame : t.table = s.table := hgrows.table
      have hsig : Member.signature? { first with kind } = some whole :=
        MemberKind.signature?_withSignature? hkind
      obtain ⟨head, hhead⟩ := OverloadKey.exists_signature hfirst
      obtain ⟨rfl, hothers⟩ : head = sig ∧ (second :: rest).filterMap Member.signature? = sigs := by
        rw [List.filterMap_cons_some hhead] at hsigs
        exact List.cons.inj hsigs
      have hgenerics : whole.typeParams = first.generics ++
          ((second :: rest).flatMap Member.generics).eraseDups.filter
            (fun name => !first.generics.contains name) := by
        rw [hmerges.typeParams, flatMap_generics, Member.generics_of_signature? hhead, hothers]
      refine ⟨first, second :: rest, { first with kind }, whole, rfl, by rw [hsame],
        (OverloadKey.of?_withSignature? hkind).trans hfirst, rfl, rfl, rfl, ?optional, hsig,
        hgenerics, ?nodup, ?free⟩
      case optional => rw [isOptionalMethod_withSignature? hkind, List.all_eq_true]
      case nodup =>
        intro hnodup
        rw [hgenerics, append_filter_eraseDups hnodup, ← List.flatMap_cons]
      case free =>
        intro name hname
        rw [Member.freeParams_of_signature? hsig] at hname
        obtain ⟨sig, hmem, hname⟩ := hmerges.mentions (hsame ▸ htable) hname
        obtain ⟨m, hm, hsig⟩ := List.mem_filterMap.mp (hsigs ▸ hmem)
        exact ⟨m, hm, Member.freeParams_of_signature? hsig ▸ hname⟩

/-- Three overloads of a method, each with type parameters of its own. -/
theorem mergeGroup_stands_for_methods :
    let overload (typeParams : List String) (params : List Param) (result : Ty) : Member :=
      ⟨some "f", .method ⟨typeParams, params, result⟩ true, false, Span.none⟩
    let group := [overload ["T"] [⟨"x", .param "T", false, false⟩] (.param "U"),
      overload ["U", "T"] [⟨"y", .array (.param "U"), false, true⟩] .void,
      overload ["V"] [] (.param "V")]
    let s := Session.start {} .batch .untyped
    s.table.PlainAliasesClosed ∧ ∃ member t,
      (mergeGroup group).exec s = (.ok (.merged (.named "f" false) group
        (group.map (·.text s.table)) member), t) ∧
      member.generics = ["T", "U", "V"] ∧
      ∀ name ∈ member.freeParams, ∃ m ∈ group, name ∈ m.freeParams := by
  intro overload group s
  obtain ⟨merged, t, hrun⟩ : ∃ merged t, (mergeGroup group).exec s = (.ok merged, t) :=
    ⟨_, _, Prod.ext rfl rfl⟩
  have hkey : ∀ m ∈ group, OverloadKey.of? m = some (.named "f" false) := by
    simp [group, overload, OverloadKey.of?]
  obtain ⟨first, rest, member, sig, hgroup, rfl, -, -, -, -, -, hsig, hgenerics, -, hfree⟩ :=
    mergeGroup_stands_for (by simp [group]) hkey .empty hrun
  obtain ⟨rfl, rfl⟩ := List.cons.inj hgroup
  refine ⟨.empty, member, t, hrun, ?_, hfree⟩
  rw [Member.generics_of_signature? hsig, hgenerics]
  decide +kernel

/-- A type parameter that the first overload lists twice is listed twice. -/
theorem mergeGroup_repeats_generics :
    let overload (typeParams : List String) : Member :=
      ⟨some "f", .method ⟨typeParams, [], .void⟩ false, false, Span.none⟩
    let group := [overload ["T", "T"], overload []]
    let s := Session.start {} .batch .untyped
    (∀ m ∈ group, OverloadKey.of? m = some (.named "f" false)) ∧ s.table.PlainAliasesClosed ∧
      ∃ docs member t,
        (mergeGroup group).exec s = (.ok (.merged (.named "f" false) group docs member), t) ∧
        member.generics = ["T", "T"] ∧ (group.flatMap Member.generics).eraseDups = ["T"] := by
  intro overload group s
  have hkey : ∀ m ∈ group, OverloadKey.of? m = some (.named "f" false) := by
    simp [group, overload, OverloadKey.of?]
  exact ⟨hkey, .empty, _, _, _, Prod.ext rfl rfl, rfl, by decide⟩

end Interop
