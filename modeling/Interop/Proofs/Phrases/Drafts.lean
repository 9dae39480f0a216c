import Interop.Proofs.Phrases.Declarations
import Interop.Proofs.Phrases.Spelling

/-!
# What drafts are made of

The documentation of a declaration lists its overloads in source syntax, and a declaration that
cannot be written in the target is kept with its name as it is.  So what stands in comments of a
library is made of words of the program and of texts that are kept from the source.

* `Slot.Over`, `MemberGroup.Over` — merging overloads brings in no texts but those of the overloads.
* `Draft.Over` — what a declaration puts in comments is of an alphabet.
* **`filesDrafts_over`** — the declarations of files are of the alphabet of the table.
-/

namespace Interop

open Work

section

variable {A : Alphabet} {base : Session} {may : Failure → Prop} (hbase : base.Settled may)
  (hover : base.Over A)

/-! ## Merging -/

/-- All types at a position are of an alphabet. -/
def Slot.Over (A : Alphabet) (slot : Slot) : Prop :=
  ∀ ty ∈ slot.types.types, ty.Over A

lemma DistinctTypes.over_representative {d : DistinctTypes} (h : ∀ ty ∈ d.types, ty.Over A)
    (default : Ty) (hdefault : default.Over A) : (d.representative?.getD default).Over A := by
  unfold representative?
  cases hunion : Ty.ofUnion d.types with
  | none => exact hdefault
  | some ty => exact Ty.over_ofUnion h hunion

/-- A merged parameter has a legal name. -/
lemma Slot.over_toParam {slot : Slot} (h : slot.Over A) : slot.toParam.Over A := by
  refine (Param.over_iff A).mpr ⟨fun c hc => A.widens c (A.plain c (isPlain_of_isPart ?_)), ?_⟩
  · exact Identifier.isPart_of_usable (Identifier.validate_escape_getD _ .value) hc
  · have htype := DistinctTypes.over_representative h .any trivial
    simp only [toParam]
    split_ifs
    · exact htype
    · exact htype

include hbase hover

lemma Slot.ofParam_over (optional : Bool) {p : Param} (hp : p.Over A) :
    (Slot.ofParam optional p).Ensures base (Slot.Over A) := by
  refine .bind (DistinctTypes.ofTypes_over hbase hover render_traced _
    (List.forall_mem_singleton.mpr (Param.over_argumentType hp))) fun _ htypes => .pure htypes

lemma Slot.add_over {slot : Slot} (h : slot.Over A) {p : Param} (hp : p.Over A) :
    (slot.add p).Ensures base (Slot.Over A) :=
  .bind (DistinctTypes.add_over hbase hover render_traced _ h (Param.over_argumentType hp))
    fun _ htypes => .pure htypes

lemma Slots.foldIn_over : ∀ {slots : List Slot} {params : List Param},
    (∀ slot ∈ slots, slot.Over A) → (∀ p ∈ params, p.Over A) →
      (Slots.foldIn slots params).Ensures base fun slots => ∀ slot ∈ slots, slot.Over A
  | slots, [], hslots, _ => by
      have hskip : ∀ slot ∈ slots.map Slot.skip, slot.Over A := by
        simpa [Slot.Over, Slot.skip] using hslots
      cases slots <;> exact .pure hskip
  | [], p :: ps, _, hparams => by
      obtain ⟨hp, hps⟩ := List.forall_mem_cons.mp hparams
      refine .bind (Slot.ofParam_over hbase hover true hp) fun slot hslot => ?_
      exact .bind (Slots.foldIn_over (by simp) hps) fun slots hslots =>
        .pure (List.forall_mem_cons.mpr ⟨hslot, hslots⟩)
  | slot :: slots, p :: ps, hslots, hparams => by
      obtain ⟨hslot, hslots⟩ := List.forall_mem_cons.mp hslots
      obtain ⟨hp, hps⟩ := List.forall_mem_cons.mp hparams
      refine .bind (Slot.add_over hbase hover hslot hp) fun slot hslot => ?_
      exact .bind (Slots.foldIn_over hslots hps) fun slots hslots =>
        .pure (List.forall_mem_cons.mpr ⟨hslot, hslots⟩)

/-- **Merging signatures** brings in no texts but those of the signatures. -/
lemma mergeSignatures_over {first : Signature} {others : List Signature} (hfirst : first.Over A)
    (hothers : ∀ sig ∈ others, sig.Over A) :
    (mergeSignatures first others).Ensures base (Signature.Over A) := by
  obtain ⟨htypes, hparams, hresult⟩ := (Signature.over_iff A).mp hfirst
  refine .bind (.forall_mapM fun p hp => Slot.ofParam_over hbase hover false (hparams p hp))
    fun slots hslots => ?_
  refine .bind (DistinctTypes.ofTypes_over hbase hover render_traced _
    (List.forall_mem_singleton.mpr hresult)) fun results hresults => ?_
  refine .bind (.foldlM (P := fun merged : List Slot × DistinctTypes =>
      (∀ slot ∈ merged.1, slot.Over A) ∧ ∀ ty ∈ merged.2.types, ty.Over A) ⟨hslots, hresults⟩ ?_)
    fun merged hmerged => .pure ((Signature.over_iff A).mpr ⟨?_, ?_, ?_⟩)
  · rintro ⟨slots, results⟩ ⟨hslots, hresults⟩ sig hsig
    obtain ⟨-, hparams, hresult⟩ := (Signature.over_iff A).mp (hothers sig hsig)
    refine .bind (Slots.foldIn_over hbase hover hslots hparams) fun slots hslots => ?_
    exact .bind (DistinctTypes.add_over hbase hover render_traced _ hresults hresult)
      fun results hresults => .pure ⟨hslots, hresults⟩
  · intro name hname
    rcases List.mem_append.mp hname with hname | hname
    · exact htypes name hname
    · obtain ⟨sig, hsig, hname⟩ :=
        List.mem_flatMap.mp (mem_of_mem_distinct (List.mem_of_mem_filter hname))
      exact ((Signature.over_iff A).mp (hothers sig hsig)).1 name hname
  · intro p hp
    obtain ⟨slot, hslot, rfl⟩ := List.mem_map.mp hp
    exact Slot.over_toParam (hmerged.1 slot hslot)
  · exact DistinctTypes.over_representative hmerged.2 .void trivial

end

/-- The member that stands for a group, and what is said above it, are of an alphabet. -/
structure MemberGroup.Over (A : Alphabet) (group : MemberGroup) : Prop where
  effective : group.effective.Over A
  docs : ∀ doc ∈ group.docs, Spelled A.note doc

lemma MemberGroup.over_single {A : Alphabet} {m : Member} (h : m.Over A) :
    (MemberGroup.single m).Over A :=
  ⟨h, fun _ hdoc => by cases hdoc⟩

lemma Member.Over.signature {A : Alphabet} {m : Member} (h : m.Over A) {sig : Signature}
    (hsig : m.signature? = some sig) : sig.Over A := by
  obtain ⟨name, kind, isStatic, span⟩ := m
  cases kind <;> simp_all [Member.signature?, MemberKind.signature?]
  all_goals exact h.2

lemma MemberKind.over_withSignature? {A : Alphabet} {kind other : MemberKind} {sig : Signature}
    {optional : Bool} (hsig : sig.Over A) (h : kind.withSignature? sig optional = some other) :
    other.Over A := by
  cases kind <;> simp only [withSignature?, Option.some.injEq, reduceCtorEq] at h
  all_goals exact h ▸ hsig

section

variable {A : Alphabet} {base : Session} {may : Failure → Prop} (hbase : base.Settled may)
  (hover : base.Over A)

include hbase hover

lemma mergeGroup_over : ∀ {group : List Member}, (∀ m ∈ group, m.Over A) →
    (mergeGroup group).Ensures base (MemberGroup.Over A)
  | [], _ => .get_bind fun _ _ => .throw _
  | first :: rest, h => by
      have hfirst := h first List.mem_cons_self
      simp only [mergeGroup]
      split
      · rename_i key other more sig sigs hkey hsigs
        have hsignatures : ∀ s ∈ sig :: sigs, s.Over A := by
          intro s hs
          obtain ⟨m, hm, hsig⟩ := List.mem_filterMap.mp (hsigs ▸ hs)
          exact (h m hm).signature hsig
        refine .bind (.pointAt _) fun _ _ => ?_
        refine .bind (mergeSignatures_over hbase hover (hsignatures sig List.mem_cons_self)
          fun s hs => hsignatures s (List.mem_cons_of_mem _ hs)) fun merged hmerged => ?_
        cases hkind : first.kind.withSignature? merged
          ((first :: other :: more).all isOptionalMethod) with
        | none => exact .throw _
        | some kind =>
            refine .table_bind (.pure ⟨?_, fun doc hdoc => ?_⟩)
            · exact (Member.over_iff A).mpr ⟨((Member.over_iff A).mp hfirst).1,
                MemberKind.over_withSignature? hmerged hkind⟩
            · obtain ⟨m, hm, rfl⟩ := List.mem_map.mp hdoc
              exact Member.spelled_text hover.table m (h m hm)
      · exact .pure (MemberGroup.over_single hfirst)

/-- **Merging members** brings in no texts but those of the members. -/
lemma mergeMembers_over {members : List Member} (h : ∀ m ∈ members, m.Over A) :
    (mergeMembers members).Ensures base fun groups => ∀ group ∈ groups, group.Over A :=
  .forall_mapM fun _ hgroup => mergeGroup_over hbase hover fun m hm =>
    h m (mem_of_mem_groupMembers hgroup hm)

/-! ## Signatures -/

/-- What a signature says is of an alphabet. -/
structure SignaturePhrase.Over (A : Alphabet) (sig : SignaturePhrase) : Prop where
  result : sig.result.Over A
  generics : Spelled A.code sig.generics
  params : sig.params.Over A

lemma phrasedType_over {ty : Ty} (h : ty.Over A) :
    (phrasedType ty).Ensures base (Phrase.Over A) :=
  (phrase_over hbase hover).withComment h RenderOptions.Plain.default.over

omit hbase hover in
lemma SignatureText.over_paramName (index : Nat) (p : Param) :
    Spelled A.code (paramName index p) :=
  fun c hc => A.plain c (isPlain_of_isPart (Identifier.isPart_of_usable (paramName_usable index p) hc))

namespace SignaturePhrase

lemma parts_over {sig : Signature} (h : sig.Over A) {generics : String}
    (hgenerics : Spelled A.code generics) :
    (parts sig generics).Ensures base (SignaturePhrase.Over A) := by
  obtain ⟨-, hparams, hresult⟩ := (Signature.over_iff A).mp h
  refine .bind (phrasedType_over hbase hover hresult) fun result hresult => ?_
  refine .bind (.forall_mapM (Q := fun p : Bool × Phrase => p.2.Over A) fun entry hentry => ?_)
    fun params hparams => .pure ⟨hresult, hgenerics, Phrase.over_parameterList hparams⟩
  have hp := hparams entry.1 (List.fst_mem_of_mem_zipIdx hentry)
  refine .bind (phrasedType_over hbase hover (Param.over_argumentType hp)) fun type htype => ?_
  have hname : Spelled A.code (" " ++ SignatureText.paramName entry.2 entry.1) :=
    spelled_append.mpr ⟨A.word (by decide), SignatureText.over_paramName entry.2 entry.1⟩
  exact .pure (Phrase.over_append.mpr ⟨htype, Phrase.over_cons.mpr ⟨hname, Phrase.over_nil⟩⟩)

lemma of_over {sig : Signature} (h : sig.Over A) : (of sig).Ensures base (SignaturePhrase.Over A) :=
  .inScope _ (parts_over hbase hover h (spelled_inAngles ((Signature.over_iff A).mp h).1))

lemma withoutGenerics_over {sig : Signature} (h : sig.Over A) :
    (withoutGenerics sig).Ensures base (SignaturePhrase.Over A) :=
  parts_over hbase hover h spelled_empty

end SignaturePhrase

end

/-! ## Drafts -/

/-- **What a declaration puts in comments** is of an alphabet: its documentation and, if it cannot be
written in the target, all of it. -/
structure Draft.Over (A : Alphabet) (d : Draft) : Prop where
  docs : ∀ doc ∈ d.docs, Spelled A.note doc
  stub : d.kind = .stub → d.header.Over A ∧ ∀ line ∈ d.metadata, Spelled A.note line

namespace Draft

variable {A : Alphabet}

lemma over_ofMember (header : Phrase) (metadata : List String) {docs : List String}
    (h : ∀ doc ∈ docs, Spelled A.note doc) : (ofMember header metadata docs).Over A :=
  ⟨h, fun hkind => by cases hkind⟩

lemma over_ofFunction (header : Phrase) (tag : String) {docs : List String}
    (h : ∀ doc ∈ docs, Spelled A.note doc) : (ofFunction header tag docs).Over A :=
  ⟨h, fun hkind => by cases hkind⟩

lemma over_ofStub {header : Phrase} (h : header.Over A) : (ofStub header).Over A := by
  refine ⟨fun doc hdoc => ?_, fun _ => ⟨h, fun _ hline => by cases hline⟩⟩
  rw [List.mem_singleton.mp hdoc]
  exact A.wordNote (by decide)

end Draft

/-- All declarations of an item are of an alphabet. -/
def DraftItem.Over (A : Alphabet) (d : DraftItem) : Prop :=
  ∀ draft ∈ d.drafts, draft.Over A

lemma DraftItem.over_single {A : Alphabet} {draft : Draft} (h : draft.Over A) :
    DraftItem.Over A ⟨draft, []⟩ :=
  List.forall_mem_singleton.mpr h

section

variable {A : Alphabet} {base : Session} {may : Failure → Prop} (hbase : base.Settled may)
  (hover : base.Over A) (hwhole : ∀ c, A.note c → A.code c)

/-! ### Headers -/

lemma over_getterPhrase {modifier name : String} {type : Phrase} (hmodifier : Spelled A.code modifier)
    (htype : type.Over A) (hname : Spelled A.code name) : (getterPhrase modifier type name).Over A := by
  have hfirst : Spelled A.code ("external " ++ modifier) :=
    spelled_append.mpr ⟨A.word (by decide), hmodifier⟩
  have hlast : Spelled A.code (" get " ++ name ++ ";") := by
    simp only [spelled_append]
    exact ⟨⟨A.word (by decide), hname⟩, A.word (by decide)⟩
  simp only [getterPhrase, Phrase.over_cons, Phrase.over_append]
  exact ⟨⟨hfirst, htype⟩, hlast, Phrase.over_nil⟩

lemma over_functionPhrase {modifier name : String} {sig : SignaturePhrase}
    (hmodifier : Spelled A.code modifier) (hname : Spelled A.code name) (hsig : sig.Over A) :
    (functionPhrase modifier name sig).Over A := by
  have hfirst : Spelled A.code ("external " ++ modifier) :=
    spelled_append.mpr ⟨A.word (by decide), hmodifier⟩
  have hmiddle : Spelled A.code (" " ++ name ++ sig.generics ++ "(") := by
    simp only [spelled_append]
    exact ⟨⟨⟨A.word (by decide), hname⟩, hsig.generics⟩, A.word (by decide)⟩
  simp only [functionPhrase, Phrase.over_cons, Phrase.over_append]
  exact ⟨⟨⟨hfirst, hsig.result⟩, hmiddle, hsig.params⟩, Phrase.over_word (by decide),
    Phrase.over_nil⟩

lemma over_staticModifier (m : Member) : Spelled A.code (staticModifier m) := by
  unfold staticModifier
  split_ifs <;> exact A.word (by decide)

/-! ### Members -/

lemma propertyDrafts_over {modifier name : String} {type : Phrase} {docs : List String}
    (hmodifier : Spelled A.code modifier) (htype : type.Over A) (hname : Spelled A.code name)
    (hdocs : ∀ doc ∈ docs, Spelled A.note doc) (readonly : Bool) :
    ∀ draft ∈ propertyDrafts modifier name type readonly docs, draft.Over A := by
  have hdeclare : ∀ (spelling : String) (metadata : List String),
      ∀ draft ∈ Draft.ofMember (getterPhrase modifier type spelling) metadata docs ::
        if readonly then [] else [.ofMember (setterPhrase modifier type spelling) metadata []],
        draft.Over A := by
    intro spelling metadata
    refine List.forall_mem_cons.mpr ⟨Draft.over_ofMember _ _ hdocs, ?_⟩
    split_ifs
    · simp
    · exact List.forall_mem_singleton.mpr (Draft.over_ofMember _ _ (by simp))
  unfold propertyDrafts
  cases Identifier.validate name .value with
  | usable => exact hdeclare name []
  | escaped spelling => exact hdeclare spelling [scriptName name]
  | unusable =>
      exact List.forall_mem_singleton.mpr
        (Draft.over_ofStub (over_getterPhrase hmodifier htype hname))

lemma methodDraft_over {modifier name : String} {sig : SignaturePhrase} {docs : List String}
    (hmodifier : Spelled A.code modifier) (hname : Spelled A.code name) (hsig : sig.Over A)
    (hdocs : ∀ doc ∈ docs, Spelled A.note doc) : (methodDraft modifier name sig docs).Over A := by
  unfold methodDraft
  cases Identifier.validate name .value with
  | usable => exact Draft.over_ofMember _ _ hdocs
  | escaped spelling => exact Draft.over_ofMember _ _ hdocs
  | unusable => exact Draft.over_ofStub (over_functionPhrase hmodifier hname hsig)

include hbase hover hwhole

/-- **What a group of members is declared as.** -/
lemma memberDrafts_over (className : String) {group : MemberGroup} (h : group.Over A) :
    (memberDrafts className group).Ensures base fun drafts => ∀ draft ∈ drafts, draft.Over A := by
  obtain ⟨hname, hkind⟩ := (Member.over_iff A).mp h.effective
  have hname : Spelled A.code (group.effective.name.getD "") := hname.imp hwhole
  have hmodifier := over_staticModifier (A := A) group.effective
  refine .bind (.pointAt _) fun _ _ => ?_
  dsimp only
  cases hmember : group.effective.kind with
  | property type optional readonly =>
      rw [hmember] at hkind
      exact .bind (phrasedType_over hbase hover hkind) fun type htype =>
        .pure (propertyDrafts_over hmodifier htype hname h.docs readonly)
  | method sig optional =>
      rw [hmember] at hkind
      exact .bind (SignaturePhrase.of_over hbase hover hkind) fun sig hsig =>
        .pure (List.forall_mem_singleton.mpr (methodDraft_over hmodifier hname hsig h.docs))
  | call sig =>
      rw [hmember] at hkind
      exact .bind (SignaturePhrase.of_over hbase hover hkind) fun sig _ =>
        .pure (List.forall_mem_singleton.mpr (Draft.over_ofMember _ _ h.docs))
  | construct sig =>
      rw [hmember] at hkind
      exact .bind (SignaturePhrase.withoutGenerics_over hbase hover hkind) fun sig _ =>
        .pure (List.forall_mem_singleton.mpr ⟨h.docs, fun hstub => by cases hstub⟩)
  | index sig =>
      rw [hmember] at hkind
      refine .bind (SignaturePhrase.withoutGenerics_over hbase hover hkind) fun sig _ =>
        .pure (List.forall_mem_cons.mpr ⟨Draft.over_ofMember _ _ h.docs, ?_⟩)
      exact List.forall_mem_singleton.mpr (Draft.over_ofMember _ _ (by simp))
  | nested id => exact .pure (by simp)

/-! ### Functions and variables -/

lemma functionDraft_over (id : Nat) {symbol : Symbol} (hsymbol : symbol.Over A)
    (name : Option String) {group : MemberGroup} (h : group.Over A) :
    (functionDraft id symbol name group).Ensures base
      fun items => ∀ item ∈ items, item.Over A := by
  unfold functionDraft
  cases hsig : group.effective.signature? with
  | none => exact .pure (by simp)
  | some sig =>
      refine .bind (.pointAt _) fun _ _ => ?_
      refine .bind (SignaturePhrase.of_over hbase hover (h.effective.signature hsig))
        fun sig hsig => ?_
      cases name with
      | none =>
          exact .pure (List.forall_mem_singleton.mpr (DraftItem.over_single (Draft.over_ofStub
            (over_functionPhrase spelled_empty (hsymbol.name.imp hwhole) hsig))))
      | some name =>
          refine .table_bind (.pure (List.forall_mem_singleton.mpr
            (DraftItem.over_single (Draft.over_ofFunction _ _ fun doc hdoc => ?_))))
          obtain ⟨overload, hoverload, rfl⟩ := List.mem_map.mp hdoc
          exact spelled_append.mpr ⟨hsymbol.name, h.docs overload hoverload⟩

lemma functionDrafts_over {id : Nat} {symbol : Symbol} (hid : base.table.get? id = some symbol)
    (hkind : symbol.kind = .function) :
    (functionDrafts id symbol).Ensures base fun items => ∀ item ∈ items, item.Over A := by
  have hsymbol := hover.table id symbol hid
  have hemitted : symbol.kind.isEmitted = true := by rw [hkind]; rfl
  unfold functionDrafts
  split_ifs
  · exact .bind (P := fun _ => False) (.throw _) fun _ h => h.elim
  · refine .bind (nameOf_ensures hbase hid hemitted) fun name _ => ?_
    refine .bind (mergeMembers_over hbase hover hsymbol.members) fun groups hgroups => ?_
    refine .bind (.forall_mapM fun group hgroup =>
      functionDraft_over hbase hover hwhole id hsymbol name (hgroups group hgroup))
      fun items hitems => .pure fun item hitem => ?_
    obtain ⟨part, hpart, hitem⟩ := List.mem_flatten.mp hitem
    exact hitems part hpart item hitem

omit hbase hover hwhole in
/-- The type of a variable is that of one of its members. -/
lemma Symbol.Over.variableType {symbol : Symbol} (h : symbol.Over A) {type : Ty} {readonly : Bool}
    (htype : symbol.variableType? = some (type, readonly)) : type.Over A := by
  obtain ⟨m, hm, hproperty⟩ := List.exists_of_findSome?_eq_some htype
  have hkind := ((Member.over_iff A).mp (h.members m hm)).2
  cases hmember : m.kind with
  | property type' optional readonly' =>
      rw [hmember] at hkind
      simp only [hmember, Option.some.injEq, Prod.mk.injEq] at hproperty
      exact hproperty.1 ▸ hkind
  | _ => simp [hmember] at hproperty

lemma variableDrafts_over {id : Nat} {symbol : Symbol} (hid : base.table.get? id = some symbol)
    (hkind : symbol.kind = .variable) :
    (variableDrafts id symbol).Ensures base fun items => ∀ item ∈ items, item.Over A := by
  have hsymbol := hover.table id symbol hid
  have hemitted : symbol.kind.isEmitted = true := by rw [hkind]; rfl
  unfold variableDrafts
  cases htype : symbol.variableType? with
  | none => exact .throw _
  | some typed =>
      obtain ⟨type, readonly⟩ := typed
      refine .bind (phrasedType_over hbase hover (hsymbol.variableType htype)) fun type htype => ?_
      refine .bind (nameOf_ensures hbase hid hemitted) fun name _ => ?_
      cases name with
      | none =>
          exact .pure (List.forall_mem_singleton.mpr (DraftItem.over_single (Draft.over_ofStub
            (over_getterPhrase spelled_empty htype (hsymbol.name.imp hwhole)))))
      | some name =>
          have hfunction : ∀ header tag, DraftItem.Over A ⟨.ofFunction header tag [], []⟩ :=
            fun header tag => DraftItem.over_single (Draft.over_ofFunction header tag (by simp))
          refine .table_bind (.pure ?_)
          cases readonly <;> simp [hfunction]

/-! ### Classes -/

omit hwhole in
/-- What is said about bases that cannot be written. -/
lemma HeritagePhrase.of_over {symbol : Symbol} (hsymbol : symbol.Over A) :
    (HeritagePhrase.of symbol).Ensures base fun h => ∀ note ∈ h.notes, Spelled A.note note := by
  refine .foldlM (by simp) fun h hnotes entry hentry => .table_bind ?_
  have hentry := hsymbol.bases entry.1 (List.fst_mem_of_mem_zipIdx hentry)
  split_ifs
  · exact .bind (phrasedType_over hbase hover hentry) fun text _ => .pure hnotes
  · exact .bind (phrasedType_over hbase hover hentry) fun text _ => .pure hnotes
  · refine .pure (List.forall_mem_append.mpr ⟨hnotes, List.forall_mem_singleton.mpr ?_⟩)
    simp only [spelled_append]
    exact ⟨⟨A.wordNote (by decide), Ty.spelled_textAs hover.table false entry.1 hentry⟩,
      A.wordNote (by decide)⟩

lemma classDraftBody_over (id : Nat) {symbol : Symbol} (hsymbol : symbol.Over A) (name : String) :
    (classDraftBody id symbol name).Ensures base (DraftItem.Over A) := by
  refine .bind (HeritagePhrase.of_over hbase hover hsymbol) fun heritage hnotes => .table_bind ?_
  refine .bind (mergeMembers_over hbase hover hsymbol.members) fun groups hgroups => ?_
  refine .bind (.forall_mapM fun group hgroup =>
    memberDrafts_over hbase hover hwhole name (hgroups group hgroup)) fun members hmembers =>
      .pure (List.forall_mem_cons.mpr ⟨⟨hnotes, fun hstub => by cases hstub⟩, fun draft hdraft => ?_⟩)
  obtain ⟨part, hpart, hdraft⟩ := List.mem_flatten.mp hdraft
  exact hmembers part hpart draft hdraft

lemma classDraft_over {id : Nat} {symbol : Symbol} (hid : base.table.get? id = some symbol)
    (hkind : symbol.kind.isEmitted = true) :
    (classDraft id symbol).Ensures base (DraftItem.Over A) := by
  have hsymbol := hover.table id symbol hid
  refine .bind (nameOf_ensures hbase hid hkind) fun name _ => ?_
  cases name with
  | none =>
      have hkeyword : Spelled A.code (classKeyword symbol.kind) := by
        unfold classKeyword
        split_ifs <;> exact A.word (by decide)
      refine .pure (DraftItem.over_single (Draft.over_ofStub
        (Phrase.over_cons.mpr ⟨?_, Phrase.over_nil⟩)))
      simp only [Piece.Over, spelled_append]
      exact ⟨⟨⟨hkeyword, A.word (by decide)⟩, hsymbol.name.imp hwhole⟩, A.word (by decide)⟩
  | some name => exact .inScope _ (classDraftBody_over hbase hover hwhole id hsymbol name)

/-! ### Scopes and files -/

lemma symbolDrafts_over {inside : Nat → Work (List DraftItem)} {id : Nat} {symbol : Symbol}
    (hid : base.table.get? id = some symbol)
    (hinside : (inside id).Ensures base fun items => ∀ item ∈ items, item.Over A) :
    (symbolDrafts inside id symbol).Ensures base fun items => ∀ item ∈ items, item.Over A := by
  refine .bind (.pointAt _) fun _ _ => ?_
  cases hkind : symbol.kind with
  | nameSpace => exact hinside
  | klass | interface | enum =>
      have hemitted : symbol.kind.isEmitted = true := by rw [hkind]; rfl
      exact .bind (classDraft_over hbase hover hwhole hid hemitted) fun item hitem =>
        .pure (List.forall_mem_singleton.mpr hitem)
  | function => exact functionDrafts_over hbase hover hwhole hid hkind
  | «variable» => exact variableDrafts_over hbase hover hwhole hid hkind
  | «alias» | typeParameter => exact .pure (by simp)

lemma scopeDrafts_over (levels : Nat) : ∀ (file : Nat) (parent : Option Nat),
    (scopeDrafts levels file parent).Ensures base fun items => ∀ item ∈ items, item.Over A := by
  induction levels with
  | zero => exact fun _ _ => .pure (by simp)
  | succ levels ih =>
      refine fun file parent => .table_bind ?_
      refine .bind (.forall_mapM (Q := fun items : List DraftItem => ∀ item ∈ items, item.Over A)
        fun id _ => ?_) fun parts hparts => .pure fun item hitem => ?_
      · cases hid : base.table.get? id with
        | none => exact .pure (by simp)
        | some symbol => exact symbolDrafts_over hbase hover hwhole hid (ih file (some id))
      · obtain ⟨part, hpart, hitem⟩ := List.mem_flatten.mp hitem
        exact hparts part hpart item hitem

/-- **The declarations of files** are of the alphabet of the table. -/
lemma filesDrafts_over : ∀ files : List CollectedFile,
    (filesDrafts files).Ensures base fun items => ∀ item ∈ items, item.Over A
  | [] => .pure (by simp)
  | f :: rest => by
      have hfile : f.drafts.Ensures base fun items => ∀ item ∈ items, item.Over A :=
        .bind (.of_traced hbase (.forM fun d _ => .report d)) fun _ _ =>
          .table_bind (scopeDrafts_over hbase hover hwhole _ f.file none)
      have hhandedOver : (modify Session.handedOver : Work Unit).Ensures base fun _ => True :=
        fun _ hs => ⟨hs.trans ⟨rfl, rfl, rfl, rfl⟩, fun _ _ => trivial⟩
      refine .bind hfile fun items hitems => .bind hhandedOver fun _ _ => ?_
      exact .bind (filesDrafts_over rest) fun more hmore =>
        .pure (List.forall_mem_append.mpr ⟨hitems, hmore⟩)

end

end Interop
