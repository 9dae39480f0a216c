import Interop.Proofs.Renumbering.Rendering

/-!
# Declarations do not depend on numbers

Corresponding members are grouped and merged alike, and corresponding symbols leave the same
declarations.  So do whole files and libraries, with the same reports, imports and failures.

* `Twins.mergeMembers_agree` — members are merged into members that correspond.
* **`Twins.scopeItems_agree`** — the declarations in corresponding namespaces are the same.
* **`Twins.writeLibrary_agree`** — corresponding libraries come out the same, and all that is
  reported in them was to be expected.
-/

namespace Interop

namespace Twins

open Renumbering (Params Signatures Members)

variable {r : Twins} {notes : List Diagnostic}

/-! ## Parameters -/

/-- Positions of parameters that correspond. -/
structure Slots (r : Twins) (slot slot' : Slot) : Prop where
  names : slot'.names = slot.names
  types : r.Distincts slot.types slot'.types
  optional : slot'.optional = slot.optional
  rest : slot'.rest = slot.rest

lemma Slots.skip {slot slot' : Slot} (h : r.Slots slot slot') : r.Slots slot.skip slot'.skip :=
  ⟨h.names, h.types, rfl, rfl⟩

lemma Slots.toParam {slot slot' : Slot} (h : r.Slots slot slot') :
    r.ρ.Params r.left.table slot.toParam slot'.toParam := by
  obtain ⟨htype, hknows⟩ := h.types.representative .any
  simp only [Slot.toParam, Slot.name, h.names, h.optional, h.rest]
  rw [htype]
  split_ifs
  · exact ⟨rfl, hknows⟩
  · exact ⟨rfl, hknows⟩

lemma ofParam_agree (optional : Bool) {p p' : Param} (hp : r.ρ.Params r.left.table p p') :
    r.Agree notes (Slot.ofParam optional p) (Slot.ofParam optional p') r.Slots := by
  obtain ⟨hname, hoptional, hrest⟩ := hp.rest_eq
  refine (distinctTypes_agree (.cons hp.argumentType .nil)).map fun types types' htypes => ?_
  exact ⟨by rw [hname], htypes, by rw [hoptional, hrest], hrest⟩

lemma slotAdd_agree {slot slot' : Slot} (h : r.Slots slot slot') {p p' : Param}
    (hp : r.ρ.Params r.left.table p p') :
    r.Agree notes (slot.add p) (slot'.add p') r.Slots := by
  obtain ⟨hname, hoptional, hrest⟩ := hp.rest_eq
  refine (render_agree.add depthLimit h.types hp.argumentType).map fun types types' htypes => ?_
  exact ⟨by rw [hname, h.names], htypes, by rw [hoptional, hrest, h.optional],
    by rw [hrest, h.rest]⟩

lemma foldIn_agree {params params' : List Param}
    (hparams : List.Forall₂ (r.ρ.Params r.left.table) params params') :
    ∀ {slots slots' : List Slot}, List.Forall₂ r.Slots slots slots' →
      r.Agree notes (Interop.Slots.foldIn slots params) (Interop.Slots.foldIn slots' params')
        (List.Forall₂ r.Slots) := by
  induction hparams with
  | nil =>
      intro slots slots' hslots
      have hskip : List.Forall₂ r.Slots (slots.map Slot.skip) (slots'.map Slot.skip) := by
        rw [List.forall₂_map_left_iff, List.forall₂_map_right_iff]
        exact hslots.imp fun _ _ => Slots.skip
      cases hslots <;> exact .pure hskip
  | cons hp _ ih =>
      intro slots slots' hslots
      cases hslots with
      | nil =>
          refine .bind (ofParam_agree true hp) fun slot slot' hslot => ?_
          refine (ih .nil).map fun rest rest' hrest => .cons ?_ hrest
          exact ⟨hslot.names, hslot.types, hslot.optional, rfl⟩
      | cons hslot hslots =>
          refine .bind (slotAdd_agree hslot hp) fun slot slot' hslot => ?_
          exact (ih hslots).map fun rest rest' hrest => .cons hslot hrest

/-- **Signatures that correspond are merged into signatures that do.** -/
lemma mergeSignatures_agree {first first' : Signature} {others others' : List Signature}
    (hfirst : r.ρ.Signatures r.left.table first first')
    (hothers : List.Forall₂ (r.ρ.Signatures r.left.table) others others') :
    r.Agree notes (mergeSignatures first others) (mergeSignatures first' others')
      (r.ρ.Signatures r.left.table) := by
  have hnames : others'.flatMap (·.typeParams) = others.flatMap (·.typeParams) := by
    induction hothers with
    | nil => rfl
    | cons hsig _ ih => rw [List.flatMap_cons, List.flatMap_cons, hsig.typeParams, ih]
  refine .bind (.mapM (hfirst.params.imp fun _ _ => ofParam_agree false))
    fun slots slots' hslots => ?_
  refine .bind (distinctTypes_agree (.cons hfirst.result .nil)) fun results results' hresults => ?_
  refine .bind (.foldlM (P := fun merged merged' =>
      List.Forall₂ r.Slots merged.1 merged'.1 ∧ r.Distincts merged.2 merged'.2)
    (hothers.imp fun sig sig' hsig => ?_) ⟨hslots, hresults⟩) fun merged merged' hmerged => ?_
  · rintro ⟨slots, results⟩ ⟨slots', results'⟩ ⟨hslots, hresults⟩
    refine .bind (foldIn_agree hsig.params hslots) fun _ _ hslots => ?_
    exact (render_agree.add depthLimit hresults hsig.result).map fun _ _ hresults =>
      ⟨hslots, hresults⟩
  · rw [hnames, hfirst.typeParams]
    refine .pure (.mk _ ?_ (hmerged.2.representative .void))
    rw [List.forall₂_map_left_iff, List.forall₂_map_right_iff]
    exact hmerged.1.imp fun _ _ => Slots.toParam

/-! ## Groups -/

/-- Members of twins that correspond. -/
abbrev Members (r : Twins) : Member → Member → Prop :=
  r.ρ.Members r.left.table

lemma Members.kind {m m' : Member} (h : r.Members m m') :
    m'.kind = m.kind.mapSymbols r.ρ.symbol ∧ r.left.table.Knows m.kind.symbols := by
  cases m
  obtain ⟨rfl, hknows⟩ := h
  exact ⟨rfl, hknows⟩

/-- What is not the kind of a member has no numbers in it. -/
lemma Members.rest_eq {m m' : Member} (h : r.Members m m') :
    m'.name = m.name ∧ m'.isStatic = m.isStatic ∧ m'.span = m.span := by
  cases m
  obtain ⟨rfl, -⟩ := h
  exact ⟨rfl, rfl, rfl⟩

lemma Members.signature? {m m' : Member} (h : r.Members m m') :
    Option.Rel (r.ρ.Signatures r.left.table) m.signature? m'.signature? := by
  obtain ⟨hkind, hknows⟩ := h.kind
  unfold Member.signature?
  rw [hkind]
  generalize m.kind = kind at hknows ⊢
  cases kind with
  | property | nested => exact .none
  | method | call | construct | index => exact .some ⟨rfl, hknows⟩

lemma Members.key {m m' : Member} (h : r.Members m m') :
    OverloadKey.of? m' = OverloadKey.of? m := by
  obtain ⟨hname, hstatic, -⟩ := h.rest_eq
  unfold OverloadKey.of?
  rw [h.kind.1, hname, hstatic]
  cases m.kind <;> rfl

lemma addToGroups_rel {m m' : Member} (hm : r.Members m m') {groups groups' : List (List Member)}
    (h : List.Forall₂ (List.Forall₂ r.Members) groups groups') :
    List.Forall₂ (List.Forall₂ r.Members) (addToGroups m groups) (addToGroups m' groups') := by
  induction h with
  | nil => exact .cons (.cons hm .nil) .nil
  | @cons group group' groups groups' hgroup hgroups ih =>
      have hjoins : joins m' group' = joins m group := by
        cases hgroup with
        | nil => rfl
        | cons hfirst _ => simp only [joins, hm.key, hfirst.key]
      simp only [addToGroups, hjoins]
      split_ifs
      · exact .cons (List.rel_append hgroup (.cons hm .nil)) hgroups
      · exact .cons hgroup ih

lemma groupMembers_rel {members members' : List Member}
    (h : List.Forall₂ r.Members members members') :
    List.Forall₂ (List.Forall₂ r.Members) (groupMembers members) (groupMembers members') := by
  have hfold : ∀ {members members' : List Member}, List.Forall₂ r.Members members members' →
      ∀ {groups groups' : List (List Member)}, List.Forall₂ (List.Forall₂ r.Members) groups groups' →
        List.Forall₂ (List.Forall₂ r.Members)
          (members.foldl (fun groups m => addToGroups m groups) groups)
          (members'.foldl (fun groups m => addToGroups m groups) groups') := by
    intro members members' h
    induction h with
    | nil => exact fun hgroups => hgroups
    | cons hm _ ih => exact fun hgroups => ih (addToGroups_rel hm hgroups)
  exact hfold h .nil

/-- Groups that are declared alike. -/
structure Groups (r : Twins) (g g' : MemberGroup) : Prop where
  effective : r.Members g.effective g'.effective
  docs : g'.docs = g.docs

/-- The signatures of members that correspond. -/
lemma signatures_rel {members members' : List Member}
    (h : List.Forall₂ r.Members members members') :
    List.Forall₂ (r.ρ.Signatures r.left.table) (members.filterMap (·.signature?))
      (members'.filterMap (·.signature?)) := by
  induction h with
  | nil => exact .nil
  | @cons m m' _ _ hm _ ih =>
      have hsig := hm.signature?
      rw [List.filterMap_cons, List.filterMap_cons]
      generalize m.signature? = sig at hsig ⊢
      generalize m'.signature? = sig' at hsig ⊢
      cases hsig with
      | none => exact ih
      | some hsig => exact .cons hsig ih

/-- A member with a signature in the place of its own. -/
lemma withSignature?_rel {m m' : Member} (hm : r.Members m m') {sig sig' : Signature}
    (hsig : r.ρ.Signatures r.left.table sig sig') (optional : Bool) :
    Option.Rel (fun kind kind' => r.Members { m with kind } { m' with kind := kind' })
      (m.kind.withSignature? sig optional) (m'.kind.withSignature? sig' optional) := by
  obtain ⟨name, kind, isStatic, span⟩ := m
  obtain ⟨rfl, -⟩ := hm
  obtain ⟨rfl, hknows⟩ := hsig
  cases kind with
  | property | nested => exact .none
  | method | call | construct | index => exact .some ⟨rfl, hknows⟩

lemma Members.isOptionalMethod {m m' : Member} (h : r.Members m m') :
    isOptionalMethod m' = isOptionalMethod m := by
  unfold Interop.isOptionalMethod
  rw [h.kind.1]
  cases m.kind <;> rfl

/-- What is the same for corresponding members is the same along lists of them. -/
lemma map_eq_of_members {α : Type} {f f' : Member → α}
    (hf : ∀ {m m'}, r.Members m m' → f' m' = f m) {members members' : List Member}
    (h : List.Forall₂ r.Members members members') : members'.map f' = members.map f := by
  induction h with
  | nil => rfl
  | cons hm _ ih => rw [List.map_cons, List.map_cons, hf hm, ih]

/-- **Overloads that correspond are merged into members that do.** -/
lemma mergeGroup_agree {group group' : List Member} (h : List.Forall₂ r.Members group group') :
    r.Agree notes (mergeGroup group) (mergeGroup group') r.Groups := by
  cases h with
  | nil =>
      refine .get_bind fun s s' hs => ?_
      rw [hs.position]
      exact .throw fun _ => Failure.noConfusion
  | @cons first first' rest rest' hfirst hrest =>
      have hmembers : List.Forall₂ r.Members (first :: rest) (first' :: rest') := .cons hfirst hrest
      have hall : (first' :: rest').all isOptionalMethod = (first :: rest).all isOptionalMethod := by
        have hmap := map_eq_of_members Members.isOptionalMethod hmembers
        simpa only [List.all_map, Function.id_comp] using congrArg (List.all · id) hmap
      have htexts : (first' :: rest').map (·.text r.right.table) =
          (first :: rest).map (·.text r.left.table) :=
        map_eq_of_members r.tables.memberText hmembers
      have hsigs := signatures_rel hmembers
      have hsingle : r.Agree notes (pure (MemberGroup.single first))
          (pure (MemberGroup.single first')) r.Groups := .pure ⟨hfirst, rfl⟩
      simp only [mergeGroup, hfirst.key, hfirst.rest_eq.2.2, hall]
      generalize (first :: rest).filterMap (·.signature?) = sigs at hsigs ⊢
      generalize (first' :: rest').filterMap (·.signature?) = sigs' at hsigs ⊢
      generalize (first :: rest).all isOptionalMethod = optional
      cases OverloadKey.of? first with
      | none => exact hsingle
      | some key =>
          cases hrest with
          | nil => exact hsingle
          | cons hsecond hrest =>
              cases hsigs with
              | nil => exact hsingle
              | cons hsig hsigs =>
                  refine .bind (.pointAt _) fun _ _ _ => ?_
                  refine .bind (mergeSignatures_agree hsig hsigs) fun merged merged' hmerged => ?_
                  have hkinds := withSignature?_rel hfirst hmerged optional
                  generalize first.kind.withSignature? merged optional = kind at hkinds ⊢
                  generalize first'.kind.withSignature? merged' optional = kind' at hkinds ⊢
                  cases hkinds with
                  | none => exact .throw fun _ => Failure.noConfusion
                  | some hkind =>
                      rw [hfirst.rest_eq.2.2] at hkind
                      exact .table_bind (.pure ⟨hkind, htexts⟩)

lemma mergeMembers_agree {members members' : List Member}
    (h : List.Forall₂ r.Members members members') :
    r.Agree notes (mergeMembers members) (mergeMembers members') (List.Forall₂ r.Groups) :=
  .mapM ((groupMembers_rel h).imp fun _ _ => mergeGroup_agree)

/-! ## Parts of declarations -/

lemma declaredType_agree {ty ty' : Ty} (hty : r.Types ty ty') :
    r.Agree notes (declaredType ty) (declaredType ty') (· = ·) :=
  render_agree.withComment hty .default

/-- Lists that correspond, with the places of their entries. -/
lemma forall₂_zipIdx {α β : Type} {R : α → β → Prop} {xs : List α} {ys : List β}
    (h : List.Forall₂ R xs ys) : ∀ i : Nat,
      List.Forall₂ (fun x y => R x.1 y.1 ∧ y.2 = x.2) (xs.zipIdx i) (ys.zipIdx i) := by
  induction h with
  | nil => exact fun _ => .nil
  | cons hxy _ ih => exact fun i => .cons ⟨hxy, rfl⟩ (ih (i + 1))

lemma signatureParts_agree {sig sig' : Signature} (hsig : r.ρ.Signatures r.left.table sig sig')
    (generics : String) : r.Agree notes (SignatureText.parts sig generics)
      (SignatureText.parts sig' generics) (· = ·) := by
  refine .bind (declaredType_agree hsig.result) ?_
  rintro result - rfl
  refine .bind (.mapM_eq ((forall₂_zipIdx hsig.params 0).imp ?_)) ?_
  · rintro ⟨p, i⟩ ⟨p', j⟩ ⟨hp, hj⟩
    obtain rfl : j = i := hj
    obtain ⟨hname, hoptional, hrest⟩ := hp.rest_eq
    refine (declaredType_agree hp.argumentType).map fun type type' htype => ?_
    rw [SignatureText.paramName, SignatureText.paramName, hname, hoptional, hrest, htype]
  · rintro params - rfl
    exact .pure rfl

lemma signatureText_agree {sig sig' : Signature} (hsig : r.ρ.Signatures r.left.table sig sig') :
    r.Agree notes (SignatureText.of sig) (SignatureText.of sig') (· = ·) := by
  unfold SignatureText.of
  rw [hsig.typeParams]
  exact .inScope _ (signatureParts_agree hsig _)

lemma memberDecls_agree (className : String) {group group' : MemberGroup}
    (h : r.Groups group group') :
    r.Agree notes (memberDecls className group) (memberDecls className group') (· = ·) := by
  obtain ⟨hname, hstatic, hspan⟩ := h.effective.rest_eq
  obtain ⟨hkind, hknows⟩ := h.effective.kind
  simp only [memberDecls, staticModifier, hname, hstatic, hspan, hkind, h.docs]
  refine .bind (.pointAt _) fun _ _ _ => ?_
  generalize group.effective.kind = kind at hknows ⊢
  cases kind with
  | property type optional readonly =>
      exact (declaredType_agree ⟨rfl, hknows⟩).map fun _ _ htype => by rw [htype]
  | method sig optional =>
      exact (signatureText_agree ⟨rfl, hknows⟩).map fun _ _ hsig => by rw [hsig]
  | call sig => exact (signatureText_agree ⟨rfl, hknows⟩).map fun _ _ hsig => by rw [hsig]
  | construct sig => exact (signatureParts_agree ⟨rfl, hknows⟩ "").map fun _ _ hsig => by rw [hsig]
  | index sig => exact (signatureParts_agree ⟨rfl, hknows⟩ "").map fun _ _ hsig => by rw [hsig]
  | nested id => exact .pure rfl

/-! ## Declarations -/

section

variable {id : Nat} {symbol : Symbol} (hid : r.left.table.get? id = some symbol)
include hid

lemma functionItem_agree (name : Option String) {group group' : MemberGroup}
    (h : r.Groups group group') :
    r.Agree notes (functionItem id symbol name group)
      (functionItem (r.ρ.symbol id) (symbol.renumber r.ρ) name group') (· = ·) := by
  have hsig := h.effective.signature?
  simp only [functionItem, h.effective.rest_eq.2.2, h.docs]
  generalize group.effective.signature? = sig at hsig ⊢
  generalize group'.effective.signature? = sig' at hsig ⊢
  cases hsig with
  | none => exact .pure rfl
  | some hsig =>
      refine .bind (.pointAt _) fun _ _ _ => ?_
      refine .bind (signatureText_agree hsig) ?_
      rintro text - rfl
      cases name with
      | none => exact .pure rfl
      | some name => exact .table_bind (.pure (by rw [r.tables.scriptTag hid]; rfl))

/-- There is a call signature in both or in none. -/
lemma callSignatures_isEmpty :
    (symbol.renumber r.ρ).callSignatures.isEmpty = symbol.callSignatures.isEmpty := by
  have hmembers := r.tables.members hid
  unfold Symbol.callSignatures
  generalize (symbol.renumber r.ρ).members = members' at hmembers ⊢
  generalize symbol.members = members at hmembers ⊢
  induction hmembers with
  | nil => rfl
  | @cons m m' _ _ hm _ ih =>
      rw [List.filterMap_cons, List.filterMap_cons, (Members.kind hm).1]
      cases m.kind with
      | call => rfl
      | _ => exact ih

lemma functionItems_agree (hkind : symbol.kind = .function) :
    r.Agree notes (functionItems id symbol)
      (functionItems (r.ρ.symbol id) (symbol.renumber r.ρ)) (· = ·) := by
  have hrest : r.Agree notes (do
        let name ← Work.nameOf id
        let groups ← mergeMembers symbol.members
        return (← groups.mapM (functionItem id symbol name)).flatten) (do
        let name ← Work.nameOf (r.ρ.symbol id)
        let groups ← mergeMembers (symbol.renumber r.ρ).members
        return (← groups.mapM
          (functionItem (r.ρ.symbol id) (symbol.renumber r.ρ) name)).flatten) (· = ·) := by
    refine .bind (.nameOf hid (by rw [hkind]; rfl)) ?_
    rintro name - rfl
    refine .bind (mergeMembers_agree (r.tables.members hid)) fun groups groups' hgroups => ?_
    exact (Agree.mapM_eq (hgroups.imp fun _ _ => functionItem_agree hid name)).map fun _ _ hitems => by
      rw [hitems]
  unfold functionItems
  rw [callSignatures_isEmpty hid]
  split_ifs
  · exact .bind (P := fun _ _ => True) (.throw fun _ => Failure.noConfusion) fun _ _ _ => hrest
  · exact hrest

/-- The types of variables that correspond. -/
lemma variableType?_rel :
    Option.Rel (fun found found' => r.Types found.1 found'.1 ∧ found'.2 = found.2)
      symbol.variableType? (symbol.renumber r.ρ).variableType? := by
  have hmembers := r.tables.members hid
  unfold Symbol.variableType?
  generalize (symbol.renumber r.ρ).members = members' at hmembers ⊢
  generalize symbol.members = members at hmembers ⊢
  induction hmembers with
  | nil => exact .none
  | @cons m m' _ _ hm _ ih =>
      obtain ⟨hkind, hknows⟩ := Members.kind hm
      rw [List.findSome?_cons, List.findSome?_cons, hkind]
      generalize m.kind = kind at hknows ⊢
      cases kind with
      | property type => exact .some ⟨⟨rfl, hknows⟩, rfl⟩
      | _ => exact ih

lemma variableItems_agree (hkind : symbol.kind = .variable) :
    r.Agree notes (variableItems id symbol)
      (variableItems (r.ρ.symbol id) (symbol.renumber r.ρ)) (· = ·) := by
  have htype := variableType?_rel hid
  unfold variableItems
  generalize symbol.variableType? = found at htype ⊢
  generalize (symbol.renumber r.ρ).variableType? = found' at htype ⊢
  cases htype with
  | none => exact .throw fun _ => Failure.noConfusion
  | @some found found' hfound =>
      obtain ⟨type, readonly⟩ := found
      obtain ⟨type', readonly'⟩ := found'
      obtain ⟨htype, rfl⟩ := hfound
      refine .bind (declaredType_agree htype) ?_
      rintro text - rfl
      refine .bind (.nameOf hid (by rw [hkind]; rfl)) ?_
      rintro name - rfl
      cases name with
      | none => exact .pure rfl
      | some name => exact .table_bind (.pure (by rw [r.tables.scriptTag hid]))

lemma heritage_agree : r.Agree notes (Heritage.of symbol) (Heritage.of (symbol.renumber r.ρ))
    (· = ·) := by
  refine .foldlM ((forall₂_zipIdx (r.tables.bases hid) 0).imp ?_) rfl
  rintro ⟨base, i⟩ ⟨base', j⟩ ⟨hbase, hj⟩ heritage - rfl
  obtain rfl : j = i := hj
  refine .table_bind ?_
  rw [r.tables.isBase hbase, r.tables.text hbase]
  have hright : (symbol.renumber r.ρ).hasSuperclass = symbol.hasSuperclass ∧
      (symbol.renumber r.ρ).kind = symbol.kind := ⟨rfl, rfl⟩
  rw [hright.1, hright.2]
  split_ifs
  · exact (declaredType_agree hbase).map fun _ _ htext => by rw [htext]
  · exact (declaredType_agree hbase).map fun _ _ htext => by rw [htext]
  · exact .pure rfl

lemma classItem_agree (hkind : symbol.kind.isEmitted = true) :
    r.Agree notes (classItem id symbol) (classItem (r.ρ.symbol id) (symbol.renumber r.ρ))
      (· = ·) := by
  refine .bind (.nameOf hid hkind) ?_
  rintro name - rfl
  cases name with
  | none => exact .pure rfl
  | some name =>
      refine .inScope _ (.bind (heritage_agree hid) ?_)
      rintro heritage - rfl
      refine .table_bind ?_
      refine .bind (mergeMembers_agree (r.tables.members hid)) fun groups groups' hgroups => ?_
      refine .bind (.mapM_eq (hgroups.imp fun _ _ => memberDecls_agree name)) ?_
      rintro members - rfl
      refine .pure ?_
      rw [r.tables.scriptTag hid]
      rfl

/-- **Corresponding symbols leave the same declarations.** -/
lemma symbolItems_agree {inside inside' : Nat → Work (List Item)}
    (hinside : r.Agree notes (inside id) (inside' (r.ρ.symbol id)) (· = ·)) :
    r.Agree notes (symbolItems inside id symbol)
      (symbolItems inside' (r.ρ.symbol id) (symbol.renumber r.ρ)) (· = ·) := by
  refine .bind (.pointAt _) fun _ _ _ => ?_
  have hright : (symbol.renumber r.ρ).kind = symbol.kind := rfl
  rw [hright]
  cases hkind : symbol.kind with
  | nameSpace => exact hinside
  | klass | interface | enum =>
      exact (classItem_agree hid (by rw [hkind]; rfl)).map fun _ _ hitem => by rw [hitem]
  | function => exact functionItems_agree hid hkind
  | «variable» => exact variableItems_agree hid hkind
  | «alias» | typeParameter => exact .pure rfl

end

/-! ## Scopes, files and libraries -/

/-- **The declarations in corresponding namespaces are the same.** -/
theorem scopeItems_agree : ∀ (levels file : Nat) (parent : Option Nat),
    r.Agree notes (scopeItems levels file parent)
      (scopeItems levels (r.ρ.file file) (parent.map r.ρ.symbol)) (· = ·)
  | 0, _, _ => .pure rfl
  | levels + 1, file, parent => by
      refine .table_bind ?_
      rw [r.tables.children]
      refine .bind (.mapM_eq ?_) ?_
      · rw [List.forall₂_map_right_iff, List.forall₂_same]
        intro id hid
        obtain ⟨symbol, hsymbol, -, -⟩ := SymbolTable.mem_children.mp hid
        simp only [hsymbol, r.tables.get?_some hsymbol]
        exact symbolItems_agree hsymbol (scopeItems_agree levels file (some id))
      · rintro items - rfl
        exact .pure rfl

lemma fileItems_agree (file : Nat) :
    r.Agree notes (fileItems file) (fileItems (r.ρ.file file)) (· = ·) := by
  refine .table_bind ?_
  rw [r.tables.size]
  exact scopeItems_agree _ file none

end Twins

end Interop
