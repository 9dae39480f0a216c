import Interop.Overload.Group
import Interop.Proofs.Emission
import Interop.Proofs.Repetition

/-!
# Merged overloads keep types

Overloads are merged into one signature, and the types of a place in them into those that differ.  A
type is dropped only if another one with its key is there already.  The keys are those of the scope
around the overloads: a type parameter that only the overloads declare is not in it, and counts as
the untyped type.  The merged signature declares that type parameter, so types that mention it may
have other keys there, and a type that was dropped may not be there any more.

* `Session.Identifies` — a key that a type has from now on, in all scopes that do not matter to it.
* `Work.Ends` — what holds once a computation has succeeded.
* `DistinctTypes.Covers` — a set of types with the keys of all components of a type.
* **`mergeGroup_covers`** — the types of a merged signature have the keys of all types it stands for.
-/

namespace Interop

open Work

/-! ## Keys that stay -/

namespace Session

/-- The key of a type, where there is one. -/
def HasKey (s : Session) (ty : Ty) (key : String) : Prop :=
  ((typeKey ty).exec s).1 = .ok key

/-- **The key that a type has from now on**, in every scope that differs in type parameters it does
not mention. -/
def Identifies (s : Session) (ty : Ty) (key : String) : Prop :=
  ∀ (hidden : List String) (t : Session), s.table.AliasesAvoid hidden → ty.Avoids hidden →
    s.Recalls hidden t → t.HasKey ty key

variable {s t : Session} {ty : Ty} {key : String}

lemma Identifies.hasKey (h : s.Identifies ty key) : s.HasKey ty key :=
  h [] s (by simp [SymbolTable.AliasesAvoid]) (by simp [Ty.Avoids]) (Grows.refl s).recalls

/-- What is identified stays identified. -/
lemma Identifies.grows (h : s.Identifies ty key) (hgrows : s.Grows t) : t.Identifies ty key :=
  fun hidden u htable hty hu => h hidden u (hgrows.table ▸ htable) hty (hgrows.trans_recalls hu)

end Session

/-! ## Computations that succeed -/

namespace Work

variable {α β : Type} {s : Session}

/-- **What holds once a computation has succeeded**, of its result and of the session it leaves. -/
def Ends (w : Work α) (s : Session) (Q : α → Session → Prop) : Prop :=
  ∀ a t, w.exec s = (.ok a, t) → s.Grows t ∧ Q a t

namespace Ends

lemma pure {Q : α → Session → Prop} {a : α} (h : Q a s) : Ends (Pure.pure a) s Q := by
  intro b t hrun
  obtain ⟨hout, rfl⟩ := Prod.mk.inj hrun
  obtain rfl := Except.ok.inj hout
  exact ⟨.refl s, h⟩

lemma throw {Q : α → Session → Prop} (failure : Failure) :
    Ends (MonadExcept.throw failure : Work α) s Q :=
  fun _ _ hrun => by cases hrun

lemma bind {P : α → Session → Prop} {Q : β → Session → Prop} {w : Work α} {k : α → Work β}
    (hw : w.Ends s P) (hk : ∀ a t, s.Grows t → P a t → (k a).Ends t Q) : (w >>= k).Ends s Q := by
  intro b u h
  rw [exec_bind] at h
  rcases hrun : w.exec s with ⟨failure | a, t⟩
  · rw [hrun] at h
    cases h
  · rw [hrun] at h
    obtain ⟨hgrows, ha⟩ := hw a t hrun
    obtain ⟨hgrows', hb⟩ := hk a t hgrows ha b u h
    exact ⟨hgrows.trans hgrows', hb⟩

lemma weaken {P Q : α → Session → Prop} {w : Work α} (hw : w.Ends s P)
    (h : ∀ a t, s.Grows t → P a t → Q a t) : w.Ends s Q := fun a t hrun =>
  ⟨(hw a t hrun).1, h a t (hw a t hrun).1 (hw a t hrun).2⟩

lemma get_bind {Q : α → Session → Prop} {k : Session → Work α} (hk : (k s).Ends s Q) :
    (get >>= k).Ends s Q :=
  hk

/-- A computation whose result is made into another one. -/
lemma map {P : α → Session → Prop} {Q : β → Session → Prop} {w : Work α} {f : α → β}
    (hw : w.Ends s P) (h : ∀ a t, s.Grows t → P a t → Q (f a) t) :
    Ends (w >>= fun a => Pure.pure (f a)) s Q :=
  bind hw fun a t hgrows ha => pure (h a t hgrows ha)

/-- **One step after another.**  `I` holds before and after every step; a step achieves `C` for what
it is about, and keeps what was achieved for others. -/
lemma foldlM {γ : Type} {f : β → α → Work β} {I : β → Session → Prop}
    {C : γ → β → Session → Prop} {R : α → γ → Prop} :
    ∀ {xs : List α} {b : β} {s : Session}, I b s →
      (∀ b s, I b s → ∀ x ∈ xs, (f b x).Ends s fun b' t => I b' t ∧
        (∀ c, R x c → C c b' t) ∧ ∀ c, C c b s → C c b' t) →
        (xs.foldlM f b).Ends s fun b' t => I b' t ∧
          (∀ x ∈ xs, ∀ c, R x c → C c b' t) ∧ ∀ c, C c b s → C c b' t
  | [], b, s, hb, _ => pure ⟨hb, by simp, fun _ h => h⟩
  | x :: xs, b, s, hb, h => by
      rw [List.foldlM_cons]
      refine bind (h b s hb x List.mem_cons_self) fun b' t _ ⟨hb', hx, hkept⟩ => ?_
      refine (foldlM hb' fun b s hb y hy => h b s hb y (List.mem_cons_of_mem _ hy)).weaken
        fun b'' u _ ⟨hb'', hxs, hkept'⟩ => ⟨hb'', ?_, fun c hc => hkept' c (hkept c hc)⟩
      intro y hy c hc
      rcases List.mem_cons.mp hy with rfl | hy
      · exact hkept' c (hx c hc)
      · exact hxs y hy c hc

/-- **One step after another**, with what holds of all that was gone through so far. -/
lemma foldlM_through {f : β → α → Work β} {I : List α → β → Session → Prop}
    (hstep : ∀ done b s x, I done b s → (f b x).Ends s fun b' t => I (done ++ [x]) b' t) :
    ∀ (xs : List α) {done : List α} {b : β} {s : Session}, I done b s →
      (xs.foldlM f b).Ends s fun b' t => I (done ++ xs) b' t
  | [], done, b, s, hb => pure (by rwa [List.append_nil])
  | x :: xs, done, b, s, hb => by
      rw [List.foldlM_cons]
      refine bind (hstep done b s x hb) fun b' t _ hb' => ?_
      refine (foldlM_through hstep xs hb').weaken fun b'' u _ hb'' => ?_
      rwa [List.append_assoc] at hb''

end Ends

end Work

/-! ## Sets of types -/

/-- A key that was computed identifies its type. -/
lemma typeKey_ends (ty : Ty) (s : Session) :
    (typeKey ty).Ends s fun key t => t.Identifies ty key := by
  intro key t hrun
  have hrepeats : ∀ hidden : List String, s.table.AliasesAvoid hidden → ty.Avoids hidden →
      (typeKey ty).Repeats s.table hidden fun _ => True := fun hidden htable hty =>
    Renderer.Repeats.key (renderWithin_repeats depthLimit) htable hty
  have hgrows := (hrepeats [] (by simp [SymbolTable.AliasesAvoid]) (by simp [Ty.Avoids]) s key t rfl
    hrun).1
  refine ⟨hgrows, fun hidden u htable hty hu => ?_⟩
  exact (hrepeats hidden (hgrows.table ▸ htable) hty s key t rfl hrun).2.2 u hu

namespace DistinctTypes

/-- A set of components under their keys. -/
def Known (s : Session) (d : DistinctTypes) : Prop :=
  ∀ entry ∈ d.entries, s.Identifies entry.2 entry.1 ∧ entry.2.IsComponent s.table s.expanding

/-- A set with the key of a type. -/
def HasKeyOf (s : Session) (part : Ty) (d : DistinctTypes) : Prop :=
  ∃ key ∈ d.keys, s.Identifies part key

/-- A set with the keys of all components of a type. -/
def Covers (s : Session) (ty : Ty) (d : DistinctTypes) : Prop :=
  ∃ parts, components s.table s.expanding depthLimit ty = some parts ∧
    ∀ part ∈ parts, d.HasKeyOf s part

variable {s t : Session} {d : DistinctTypes} {ty : Ty} {key : String}

lemma Known.grows (h : d.Known s) (hgrows : s.Grows t) : d.Known t := fun entry hentry =>
  ⟨(h entry hentry).1.grows hgrows, by
    rw [hgrows.table, hgrows.expanding]
    exact (h entry hentry).2⟩

lemma mem_keys_insert {other : String} :
    other ∈ (d.insert key ty).keys ↔ other ∈ d.keys ∨ other = key := by
  unfold insert
  split_ifs with h
  · rw [List.contains_iff_mem] at h
    constructor
    · exact Or.inl
    · rintro (h' | rfl)
      · exact h'
      · exact h
  · simp [keys]

lemma Known.insert (h : d.Known s) (hkey : s.Identifies ty key)
    (hty : ty.IsComponent s.table s.expanding) : (d.insert key ty).Known s := by
  unfold DistinctTypes.insert
  split_ifs
  · exact h
  · intro entry hentry
    rcases List.mem_append.mp hentry with hentry | hentry
    · exact h entry hentry
    · obtain rfl := List.mem_singleton.mp hentry
      exact ⟨hkey, hty⟩

lemma keys_subset_insert (d : DistinctTypes) (key : String) (ty : Ty) :
    d.keys ⊆ (d.insert key ty).keys :=
  fun _ hkey => mem_keys_insert.mpr (Or.inl hkey)

lemma HasKeyOf.mono {part : Ty} {d' : DistinctTypes} (h : d.HasKeyOf s part) (hgrows : s.Grows t)
    (hkeys : d.keys ⊆ d'.keys) : d'.HasKeyOf t part := by
  obtain ⟨key, hkey, hpart⟩ := h
  exact ⟨key, hkeys hkey, hpart.grows hgrows⟩

/-- What is covered stays covered. -/
lemma Covers.mono {d' : DistinctTypes} (h : d.Covers s ty) (hgrows : s.Grows t)
    (hkeys : d.keys ⊆ d'.keys) : d'.Covers t ty := by
  obtain ⟨parts, hparts, hcovered⟩ := h
  refine ⟨parts, ?_, fun part hpart => (hcovered part hpart).mono hgrows hkeys⟩
  rw [hgrows.table, hgrows.expanding]
  exact hparts

lemma Covers.grows (h : d.Covers s ty) (hgrows : s.Grows t) : d.Covers t ty :=
  h.mono hgrows (List.Subset.refl _)

/-- **A type that is added is covered**, and no key is lost. -/
lemma add_ends (hd : d.Known s) (ty : Ty) : (d.add render depthLimit ty).Ends s fun d' t =>
    d'.Known t ∧ d'.Covers t ty ∧ d.keys ⊆ d'.keys := by
  refine .get_bind ?_
  cases hparts : components s.table s.expanding depthLimit ty with
  | none => exact .throw _
  | some parts =>
      refine (Work.Ends.foldlM (R := Eq)
        (I := fun d' u => s.Grows u ∧ d'.Known u ∧ d.keys ⊆ d'.keys)
        (C := fun part d' u => d'.HasKeyOf u part) ⟨.refl s, hd, List.Subset.refl _⟩ ?_).weaken ?_
      · rintro d' u ⟨hgrows, hknown, hkeys⟩ part hpart
        refine (typeKey_ends part u).map fun key v hgrows' hkey => ?_
        have hcomponent : part.IsComponent v.table v.expanding := by
          rw [(hgrows.trans hgrows').table, (hgrows.trans hgrows').expanding]
          exact isComponent_of_components hparts part hpart
        have hinsert := keys_subset_insert d' key part
        refine ⟨⟨hgrows.trans hgrows', (hknown.grows hgrows').insert hkey hcomponent,
          List.Subset.trans hkeys hinsert⟩, ?_, fun other hother => hother.mono hgrows' hinsert⟩
        rintro _ rfl
        exact ⟨key, mem_keys_insert.mpr (Or.inr rfl), hkey⟩
      · rintro d' t hgrows ⟨⟨-, hknown, hkeys⟩, hcovered, -⟩
        refine ⟨hknown, ⟨parts, ?_, fun part hpart => hcovered part hpart part rfl⟩, hkeys⟩
        rw [hgrows.table, hgrows.expanding]
        exact hparts

lemma distinctTypes_ends (s : Session) (ty : Ty) : (distinctTypes [ty]).Ends s fun d t =>
    d.Known t ∧ d.Covers t ty := by
  refine .bind (add_ends (d := {}) (fun entry hentry => by cases hentry) ty) fun d t _ h => ?_
  exact .pure ⟨h.1, h.2.1⟩

end DistinctTypes

/-! ## Parameter lists -/

/-- Positions whose types are components under their keys. -/
def Slots.Known (s : Session) (slots : List Slot) : Prop :=
  ∀ slot ∈ slots, slot.types.Known s

/-- Positions that cover a parameter list. -/
def Slots.Covers (s : Session) : List Param → List Slot → Prop
  | [], _ => True
  | _ :: _, [] => False
  | p :: ps, slot :: slots => slot.types.Covers s p.argumentType ∧ Slots.Covers s ps slots

namespace Slots

variable {s t : Session}

/-- A parameter of a list that is covered stands at a position. -/
lemma Covers.getElem? : ∀ {ps : List Param} {slots : List Slot} {i : Nat} {p : Param},
    Covers s ps slots → ps[i]? = some p →
      ∃ slot, slots[i]? = some slot ∧ slot.types.Covers s p.argumentType
  | [], _, _, _, _, hp => by simp at hp
  | _ :: _, [], _, _, h, _ => h.elim
  | p :: ps, slot :: slots, 0, q, h, hp => by
      obtain rfl := Option.some.inj hp
      exact ⟨slot, rfl, h.1⟩
  | p :: ps, slot :: slots, i + 1, q, h, hp => by
      obtain ⟨slot', hslot', hcovers⟩ := Covers.getElem? h.2 hp
      exact ⟨slot', hslot', hcovers⟩

lemma Covers.grows (hgrows : s.Grows t) : ∀ {ps : List Param} {slots : List Slot},
    Covers s ps slots → Covers t ps slots
  | [], _, _ => trivial
  | _ :: _, [], h => h.elim
  | _ :: _, _ :: _, h => ⟨h.1.grows hgrows, h.2.grows hgrows⟩

lemma covers_skip : ∀ {ps : List Param} {slots : List Slot}, Covers s ps slots →
    Covers s ps (slots.map Slot.skip)
  | [], _, _ => trivial
  | _ :: _, [], h => h.elim
  | _ :: _, _ :: _, h => ⟨h.1, covers_skip h.2⟩

lemma ofParam_ends (optional : Bool) (p : Param) (s : Session) :
    (Slot.ofParam optional p).Ends s fun slot t =>
      slot.types.Known t ∧ slot.types.Covers t p.argumentType :=
  (DistinctTypes.distinctTypes_ends s p.argumentType).map fun _ _ _ h => h

lemma ofParams_ends : ∀ (ps : List Param) (s : Session), (ofParams ps).Ends s fun slots t =>
    Known t slots ∧ Covers t ps slots
  | [], s => .pure ⟨fun _ hslot => (List.not_mem_nil hslot).elim, trivial⟩
  | p :: ps, s => by
      rw [ofParams, List.mapM_cons]
      refine (ofParam_ends false p s).bind fun slot t _ hslot => ?_
      refine (ofParams_ends ps t).map fun slots u hgrows hslots => ?_
      exact ⟨List.forall_mem_cons.mpr ⟨hslot.1.grows hgrows, hslots.1⟩, hslot.2.grows hgrows,
        hslots.2⟩

/-- **A parameter list that is folded in is covered**, and so are those that were. -/
lemma foldIn_ends : ∀ (slots : List Slot) (ps : List Param) {s : Session}, Known s slots →
    (foldIn slots ps).Ends s fun slots' t => Known t slots' ∧ Covers t ps slots' ∧
      ∀ qs, Covers s qs slots → Covers t qs slots'
  | slots, [], s, hknown => by
      rw [foldIn]
      exact .pure ⟨List.forall_mem_map.mpr hknown, trivial, fun _ => covers_skip⟩
  | [], p :: ps, s, _ => by
      rw [foldIn]
      refine (ofParam_ends true p s).bind fun slot t _ hslot => ?_
      refine (foldIn_ends [] ps (fun _ hslot => (List.not_mem_nil hslot).elim)).map
        fun slots u hgrows hslots => ⟨?_, ⟨hslot.2.grows hgrows, hslots.2.1⟩, ?_⟩
      · exact List.forall_mem_cons.mpr ⟨hslot.1.grows hgrows, hslots.1⟩
      · rintro (_ | ⟨q, qs⟩) h
        · trivial
        · exact h.elim
  | slot :: slots, p :: ps, s, hknown => by
      rw [foldIn]
      obtain ⟨hslot, hslots⟩ := List.forall_mem_cons.mp hknown
      have hadd : (slot.add p).Ends s fun slot' t => slot'.types.Known t ∧
          slot'.types.Covers t p.argumentType ∧ slot.types.keys ⊆ slot'.types.keys :=
        (DistinctTypes.add_ends hslot p.argumentType).map fun _ _ _ h => h
      refine hadd.bind fun slot' t hgrows hslot' => ?_
      refine (foldIn_ends slots ps fun other hother => (hslots other hother).grows hgrows).map
        fun slots' u hgrows' hslots' => ⟨?_, ⟨hslot'.2.1.grows hgrows', hslots'.2.1⟩, ?_⟩
      · exact List.forall_mem_cons.mpr ⟨hslot'.1.grows hgrows', hslots'.1⟩
      · rintro (_ | ⟨q, qs⟩) h
        · trivial
        · exact ⟨(h.1.mono hgrows hslot'.2.2).grows hgrows', hslots'.2.2 qs (h.2.grows hgrows)⟩

end Slots

/-! ## Merged signatures -/

/-- A place of a type in a signature. -/
inductive SignaturePlace where
  | param (index : Nat)
  | result
  deriving DecidableEq, Repr

/-- The type at a place: that of a result, or of an argument. -/
def Signature.typeAt (sig : Signature) : SignaturePlace → Option Ty
  | .param index => sig.params[index]?.map Param.argumentType
  | .result => some sig.result

/-- Types with one key. -/
def Session.SameKey (s : Session) (ty ty' : Ty) : Prop :=
  ∃ key, s.HasKey ty key ∧ s.HasKey ty' key

/-- **A type that another one stands for**: each of its components has the key of a component of the
other.  With new type parameters in scope it has so still, unless one of both components mentions
them. -/
def Session.StandsFor (s : Session) (typeParams : List String) (ty' ty : Ty) : Prop :=
  ∃ parts parts', components s.table s.expanding depthLimit ty = some parts ∧
    components s.table s.expanding depthLimit ty' = some parts' ∧
      ∀ part ∈ parts, ∃ part' ∈ parts', s.SameKey part part' ∧
        (s.table.AliasesClosed →
          part.Avoids (typeParams.filter fun name => !s.inScope name) →
            part'.Avoids (typeParams.filter fun name => !s.inScope name) →
              (s.pushScope typeParams).SameKey part part')

section

variable {s t : Session} {d : DistinctTypes} {ty : Ty}

/-- Where the aliases mention no type parameters but their own, they mention no hidden ones. -/
lemma SymbolTable.AliasesClosed.avoid {table : SymbolTable} (h : table.AliasesClosed)
    (hidden : List String) : table.AliasesAvoid hidden :=
  fun id symbol body hid hbody _ _ hname => h id symbol body hid hbody hname

/-- A key that identifies a type is its key in a scope with new type parameters, too. -/
lemma Session.Identifies.pushScope {key : String} (h : s.Identifies ty key) {names : List String}
    (htable : s.table.AliasesClosed) (hty : ty.Avoids (names.filter fun name => !s.inScope name)) :
    (s.pushScope names).HasKey ty key :=
  h _ _ (htable.avoid _) hty (s.recalls_pushScope names)

/-- **The type that is made of a set** stands for all types that the set covers. -/
lemma DistinctTypes.Covers.standsFor (h : d.Covers s ty) (hknown : d.Known s) {other : Ty}
    (hother : other.IsComponent s.table s.expanding) (names : List String) :
    s.StandsFor names (d.representative?.getD other) ty := by
  obtain ⟨parts, hparts, hcovered⟩ := h
  have hentry : ∀ part ∈ parts, ∃ entry ∈ d.entries, s.Identifies part entry.1 ∧
      s.Identifies entry.2 entry.1 := by
    intro part hpart
    obtain ⟨key, hkey, hidentifies⟩ := hcovered part hpart
    obtain ⟨entry, hentry, rfl⟩ := List.mem_map.mp hkey
    exact ⟨entry, hentry, hidentifies, (hknown entry hentry).1⟩
  cases hrepresentative : d.representative? with
  | none =>
      have hempty : d.entries = [] := by
        rcases hentries : d.types with _ | ⟨first, _ | ⟨second, rest⟩⟩
        · exact List.map_eq_nil_iff.mp hentries
        · simp [representative?, hentries, Ty.ofUnion] at hrepresentative
        · simp [representative?, hentries, Ty.ofUnion] at hrepresentative
      refine ⟨parts, [other], hparts, hother 999999, fun part hpart => ?_⟩
      obtain ⟨entry, hmem, -⟩ := hentry part hpart
      rw [hempty] at hmem
      cases hmem
  | some ty' =>
      have hunion : components s.table s.expanding depthLimit ty' = some d.types :=
        components_ofUnion hrepresentative
          (List.forall_mem_map.mpr fun entry hentry => (hknown entry hentry).2) 999998
      refine ⟨parts, d.types, hparts, hunion, fun part hpart => ?_⟩
      obtain ⟨entry, hmem, hpart, hpart'⟩ := hentry part hpart
      refine ⟨entry.2, List.mem_map_of_mem hmem, ⟨entry.1, hpart.hasKey, hpart'.hasKey⟩, ?_⟩
      exact fun htable havoids havoids' =>
        ⟨entry.1, hpart.pushScope htable havoids, hpart'.pushScope htable havoids'⟩

/-- The type of an argument of a merged parameter, whether it is a rest parameter or not. -/
lemma Slot.argumentType_toParam (slot : Slot) :
    slot.toParam.argumentType = slot.types.representative?.getD .any := by
  unfold Slot.toParam Param.argumentType
  cases slot.rest <;> rfl

/-- A signature whose types are covered, place by place. -/
def Signature.Covered (s : Session) (sig : Signature) (merged : List Slot × DistinctTypes) : Prop :=
  Slots.Covers s sig.params merged.1 ∧ merged.2.Covers s sig.result

/-- **A merged signature stands for those that are merged**, place by place. -/
lemma mergeSignatures_ends (first : Signature) (others : List Signature) (s : Session) :
    (mergeSignatures first others).Ends s fun merged t =>
      ∀ sig ∈ first :: others, ∀ place ty, sig.typeAt place = some ty →
        ∃ ty', merged.typeAt place = some ty' ∧ t.StandsFor merged.typeParams ty' ty := by
  refine (Slots.ofParams_ends first.params s).bind fun slots t _ hslots => ?_
  refine (DistinctTypes.distinctTypes_ends t first.result).bind fun results u hgrows hresults => ?_
  refine (Work.Ends.foldlM (R := Eq)
    (I := fun merged v => Slots.Known v merged.1 ∧ merged.2.Known v)
    (C := fun sig merged v => sig.Covered v merged)
    ⟨fun slot hslot => (hslots.1 slot hslot).grows hgrows, hresults.1⟩ ?_).map ?_
  · rintro ⟨slots, results⟩ v ⟨hslots, hresults⟩ sig -
    refine (Slots.foldIn_ends slots sig.params hslots).bind fun slots' w hgrows hslots' => ?_
    refine (DistinctTypes.add_ends (hresults.grows hgrows) sig.result).map
      fun results' x hgrows' hresults' => ?_
    refine ⟨⟨fun slot hslot => (hslots'.1 slot hslot).grows hgrows', hresults'.1⟩, ?_, ?_⟩
    · rintro _ rfl
      exact ⟨hslots'.2.1.grows hgrows', hresults'.2.1⟩
    · rintro other ⟨hparams, hresult⟩
      exact ⟨(hslots'.2.2 other.params hparams).grows hgrows',
        (hresult.grows hgrows).mono hgrows' hresults'.2.2⟩
  · rintro ⟨slots, results⟩ v - ⟨⟨hslotsKnown, hresultsKnown⟩, hothers, hkept⟩ sig hsig place ty hty
    have hcovered : sig.Covered v (slots, results) := by
      rcases List.mem_cons.mp hsig with rfl | hsig
      · exact hkept sig ⟨hslots.2.grows hgrows, hresults.2⟩
      · exact hothers sig hsig sig rfl
    cases place with
    | result =>
        obtain rfl := Option.some.inj hty
        exact ⟨_, rfl, hcovered.2.standsFor hresultsKnown (fun _ => rfl) _⟩
    | param index =>
        obtain ⟨p, hp, rfl⟩ := Option.map_eq_some_iff.mp hty
        obtain ⟨slot, hslot, hcovers⟩ := hcovered.1.getElem? hp
        refine ⟨slot.types.representative?.getD .any, ?_,
          hcovers.standsFor (hslotsKnown slot (List.mem_of_getElem? hslot)) (fun _ => rfl) _⟩
        simp only [Signature.typeAt, List.getElem?_map, hslot, Option.map_some,
          Slot.argumentType_toParam]

end

/-- **Merged overloads keep types.**  At every place of every signature of a group, the merged
signature has a type that stands for the type there. -/
theorem mergeGroup_covers (s : Session) (group : List Member) :
    match (mergeGroup group).exec s with
    | (.ok (.merged _ _ _ member), t) => ∃ merged, member.signature? = some merged ∧
        ∀ sig ∈ group.filterMap Member.signature?, ∀ place ty, sig.typeAt place = some ty →
          ∃ ty', merged.typeAt place = some ty' ∧ t.StandsFor merged.typeParams ty' ty
    | _ => True := by
  rcases group with _ | ⟨first, _ | ⟨second, others⟩⟩
  · trivial
  · cases hkey : OverloadKey.of? first <;> simp only [mergeGroup, hkey] <;> trivial
  · cases hkey : OverloadKey.of? first with
    | none =>
        simp only [mergeGroup, hkey]
        trivial
    | some key =>
        simp only [mergeGroup, hkey]
        cases hsigs : (first :: second :: others).filterMap Member.signature? with
        | nil => trivial
        | cons sig sigs =>
            rw [exec_bind, exec_modify, next, exec_bind]
            rcases hrun : (mergeSignatures sig sigs).exec (s.pointAt first.span) with
              ⟨failure | merged, t⟩
            · trivial
            · rw [next]
              cases hkind : first.kind.withSignature? merged
                  ((first :: second :: others).all isOptionalMethod) with
              | none => trivial
              | some kind => exact ⟨merged, MemberKind.signature?_withSignature? hkind,
                  (mergeSignatures_ends sig sigs _ merged t hrun).2⟩

/-- Where overloads declare a type parameter it may be lost: of `f<T>(x: any)` and `f<T>(x: T)` only
the untyped parameter is left, and in the scope of the merged signature both have other keys. -/
theorem mergeGroup_drops_param :
    let overload (ty : Ty) : Member :=
      ⟨some "f", .method ⟨["T"], [⟨"x", ty, false, false⟩], .void⟩ false, false, Span.none⟩
    let run := (mergeGroup [overload .any, overload (.param "T")]).exec (.start {} .batch .untyped)
    ∃ group merged ty parts, run.1 = .ok group ∧ group.effective.signature? = some merged ∧
      merged.typeAt (.param 0) = some ty ∧
      components run.2.table run.2.expanding depthLimit ty = some parts ∧
      (∀ part ∈ parts, (run.2.pushScope merged.typeParams).HasKey part "dynamic") ∧
      (run.2.pushScope merged.typeParams).HasKey (.param "T") "T" := by
  intro overload run
  let keyOf (typeParams : List String) (ty : Ty) : Option String :=
    ((typeKey ty).exec (run.2.pushScope typeParams)).1.toOption
  have hok : ∀ {α : Type} {out : Except Failure α} {a : α}, out.toOption = some a → out = .ok a := by
    intro α out a h
    cases out with
    | error failure => cases h
    | ok other => exact congrArg Except.ok (Option.some.inj h)
  have hrun : (run.1.toOption.bind fun group => group.effective.signature?.bind fun merged =>
      (merged.typeAt (.param 0)).bind fun ty =>
        (components run.2.table run.2.expanding depthLimit ty).map fun parts =>
          (parts.map (keyOf merged.typeParams), keyOf merged.typeParams (.param "T"))) =
      some ([some "dynamic"], some "T") := by
    decide +kernel
  obtain ⟨group, hgroup, hrun⟩ := Option.bind_eq_some_iff.mp hrun
  obtain ⟨merged, hmerged, hrun⟩ := Option.bind_eq_some_iff.mp hrun
  obtain ⟨ty, hty, hrun⟩ := Option.bind_eq_some_iff.mp hrun
  obtain ⟨parts, hparts, hkeys⟩ := Option.map_eq_some_iff.mp hrun
  obtain ⟨hdynamic, hparam⟩ := Prod.mk.inj hkeys
  refine ⟨group, merged, ty, parts, hok hgroup, hmerged, hty, hparts, fun part hpart => ?_,
    hok hparam⟩
  have hmem : keyOf merged.typeParams part ∈ [some "dynamic"] :=
    hdynamic ▸ List.mem_map_of_mem hpart
  exact hok (List.mem_singleton.mp hmem)

end Interop
