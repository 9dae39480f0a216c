import Interop.Proofs.Occurrences

/-!
# Laws of replacing type parameters

What is put in for type parameters may have type parameters itself, which are replaced in turn.  To
replace those of the whole is to replace those of what is put in, unless a signature around the place
captures one of them.

* `Ty.substitute_congr` — only what is put in for free type parameters counts.
* `Ty.substitute_of_unbound` — a type without free type parameters that are bound stays as it is.
* `Bindings.Apart` — at no place something is captured, or replaced that was not put in.
* **`Ty.substitute_substitute`** — replacing twice is replacing once.
-/

namespace Interop

/-! ## What counts -/

lemma Bindings.lookup_hiding_congr {b b' : Bindings} {names : List String} {name : String}
    (h : name ∉ names → b.lookup name = b'.lookup name) :
    (b.hiding names).lookup name = (b'.hiding names).lookup name := by
  by_cases hname : name ∈ names
  · rw [lookup_hiding_of_mem hname, lookup_hiding_of_mem hname]
  · rw [lookup_hiding hname, lookup_hiding hname, h hname]

section

mutual

/-- **Only what is put in for free type parameters counts.** -/
lemma Ty.substitute_congr {b b' : Bindings} : ∀ ty : Ty,
    (∀ name ∈ ty.freeParams, b.lookup name = b'.lookup name) → ty.substitute b = ty.substitute b'
  | .nominal id args, h => congrArg (Ty.nominal id) (Ty.substituteAll_congr args h)
  | .function sig, h => congrArg Ty.function (Signature.substitute_congr sig h)
  | .array element, h => congrArg Ty.array (Ty.substitute_congr element h)
  | .tuple elements, h => congrArg Ty.tuple (Ty.substituteAll_congr elements h)
  | .shape members, h => congrArg Ty.shape (Member.substituteAll_congr members h)
  | .union members, h => congrArg Ty.union (Ty.substituteAll_congr members h)
  | .intersection members, h => congrArg Ty.intersection (Ty.substituteAll_congr members h)
  | .param name, h => by simp only [Ty.substitute, h name List.mem_cons_self]
  | .primitive _, _ | .alias _, _ | .literal _ _, _ | .raw _, _ => rfl

lemma Ty.substituteAll_congr {b b' : Bindings} : ∀ tys : List Ty,
    (∀ name ∈ Ty.freeParamsAll tys, b.lookup name = b'.lookup name) →
      Ty.substituteAll b tys = Ty.substituteAll b' tys
  | [], _ => rfl
  | ty :: tys, h => by
      obtain ⟨hty, htys⟩ := List.forall_mem_append.mp h
      rw [Ty.substituteAll, Ty.substituteAll, Ty.substitute_congr ty hty,
        Ty.substituteAll_congr tys htys]

lemma Signature.substitute_congr {b b' : Bindings} : ∀ sig : Signature,
    (∀ name ∈ sig.freeParams, b.lookup name = b'.lookup name) → sig.substitute b = sig.substitute b'
  | ⟨typeParams, params, result⟩, h => by
      have hinner : ∀ name ∈ Param.freeParamsAll params ++ result.freeParams,
          (b.hiding typeParams).lookup name = (b'.hiding typeParams).lookup name := by
        refine fun name hname => Bindings.lookup_hiding_congr fun hdeclared => h name ?_
        exact List.mem_filter.mpr ⟨hname, by simpa using hdeclared⟩
      obtain ⟨hparams, hresult⟩ := List.forall_mem_append.mp hinner
      rw [Signature.substitute, Signature.substitute, Param.substituteAll_congr params hparams,
        Ty.substitute_congr result hresult]

lemma Param.substitute_congr {b b' : Bindings} : ∀ p : Param,
    (∀ name ∈ p.freeParams, b.lookup name = b'.lookup name) → p.substitute b = p.substitute b'
  | ⟨name, type, optional, rest⟩, h =>
      congrArg (Param.mk name · optional rest) (Ty.substitute_congr type h)

lemma Param.substituteAll_congr {b b' : Bindings} : ∀ ps : List Param,
    (∀ name ∈ Param.freeParamsAll ps, b.lookup name = b'.lookup name) →
      Param.substituteAll b ps = Param.substituteAll b' ps
  | [], _ => rfl
  | p :: ps, h => by
      obtain ⟨hp, hps⟩ := List.forall_mem_append.mp h
      rw [Param.substituteAll, Param.substituteAll, Param.substitute_congr p hp,
        Param.substituteAll_congr ps hps]

lemma MemberKind.substitute_congr {b b' : Bindings} : ∀ kind : MemberKind,
    (∀ name ∈ kind.freeParams, b.lookup name = b'.lookup name) →
      kind.substitute b = kind.substitute b'
  | .property type optional readonly, h =>
      congrArg (MemberKind.property · optional readonly) (Ty.substitute_congr type h)
  | .method sig optional, h =>
      congrArg (MemberKind.method · optional) (Signature.substitute_congr sig h)
  | .call sig, h => congrArg MemberKind.call (Signature.substitute_congr sig h)
  | .construct sig, h => congrArg MemberKind.construct (Signature.substitute_congr sig h)
  | .index sig, h => congrArg MemberKind.index (Signature.substitute_congr sig h)
  | .nested _, _ => rfl

lemma Member.substitute_congr {b b' : Bindings} : ∀ m : Member,
    (∀ name ∈ m.freeParams, b.lookup name = b'.lookup name) → m.substitute b = m.substitute b'
  | ⟨name, kind, isStatic, span⟩, h =>
      congrArg (Member.mk name · isStatic span) (MemberKind.substitute_congr kind h)

lemma Member.substituteAll_congr {b b' : Bindings} : ∀ ms : List Member,
    (∀ name ∈ Member.freeParamsAll ms, b.lookup name = b'.lookup name) →
      Member.substituteAll b ms = Member.substituteAll b' ms
  | [], _ => rfl
  | m :: ms, h => by
      obtain ⟨hm, hms⟩ := List.forall_mem_append.mp h
      rw [Member.substituteAll, Member.substituteAll, Member.substitute_congr m hm,
        Member.substituteAll_congr ms hms]

end

/-! ## Nothing is replaced -/

mutual

lemma Ty.substitute_nil : ∀ ty : Ty, ty.substitute [] = ty
  | .nominal id args => congrArg (Ty.nominal id) (Ty.substituteAll_nil args)
  | .function sig => congrArg Ty.function (Signature.substitute_nil sig)
  | .array element => congrArg Ty.array (Ty.substitute_nil element)
  | .tuple elements => congrArg Ty.tuple (Ty.substituteAll_nil elements)
  | .shape members => congrArg Ty.shape (Member.substituteAll_nil members)
  | .union members => congrArg Ty.union (Ty.substituteAll_nil members)
  | .intersection members => congrArg Ty.intersection (Ty.substituteAll_nil members)
  | .param _ | .primitive _ | .alias _ | .literal _ _ | .raw _ => rfl

lemma Ty.substituteAll_nil : ∀ tys : List Ty, Ty.substituteAll [] tys = tys
  | [] => rfl
  | ty :: tys => by rw [Ty.substituteAll, Ty.substitute_nil ty, Ty.substituteAll_nil tys]

lemma Signature.substitute_nil : ∀ sig : Signature, sig.substitute [] = sig
  | ⟨typeParams, params, result⟩ => by
      rw [Signature.substitute, show Bindings.hiding [] typeParams = [] from rfl,
        Param.substituteAll_nil params, Ty.substitute_nil result]

lemma Param.substitute_nil : ∀ p : Param, p.substitute [] = p
  | ⟨name, type, optional, rest⟩ =>
      congrArg (Param.mk name · optional rest) (Ty.substitute_nil type)

lemma Param.substituteAll_nil : ∀ ps : List Param, Param.substituteAll [] ps = ps
  | [] => rfl
  | p :: ps => by rw [Param.substituteAll, Param.substitute_nil p, Param.substituteAll_nil ps]

lemma MemberKind.substitute_nil : ∀ kind : MemberKind, kind.substitute [] = kind
  | .property type optional readonly =>
      congrArg (MemberKind.property · optional readonly) (Ty.substitute_nil type)
  | .method sig optional => congrArg (MemberKind.method · optional) (Signature.substitute_nil sig)
  | .call sig => congrArg MemberKind.call (Signature.substitute_nil sig)
  | .construct sig => congrArg MemberKind.construct (Signature.substitute_nil sig)
  | .index sig => congrArg MemberKind.index (Signature.substitute_nil sig)
  | .nested _ => rfl

lemma Member.substitute_nil : ∀ m : Member, m.substitute [] = m
  | ⟨name, kind, isStatic, span⟩ =>
      congrArg (Member.mk name · isStatic span) (MemberKind.substitute_nil kind)

lemma Member.substituteAll_nil : ∀ ms : List Member, Member.substituteAll [] ms = ms
  | [] => rfl
  | m :: ms => by rw [Member.substituteAll, Member.substitute_nil m, Member.substituteAll_nil ms]

end

end

/-- **A type without free type parameters that are bound** stays as it is. -/
lemma Ty.substitute_of_unbound {b : Bindings} {ty : Ty}
    (h : ∀ name ∈ ty.freeParams, b.lookup name = none) : ty.substitute b = ty :=
  (Ty.substitute_congr ty h).trans (Ty.substitute_nil ty)

/-! ## Replacing twice -/

/-- What is put in, with its own type parameters replaced. -/
def Bindings.substitute (c b : Bindings) : Bindings :=
  c.map fun entry => (entry.1, entry.2.substitute b)

lemma Bindings.lookup_substitute (c b : Bindings) (name : String) :
    (c.substitute b).lookup name = (c.lookup name).map (Ty.substitute b) := by
  induction c with
  | nil => rfl
  | cons entry rest ih =>
      obtain ⟨other, ty⟩ := entry
      have ih : List.lookup name (rest.map fun entry => (entry.1, entry.2.substitute b)) =
        (List.lookup name rest).map (Ty.substitute b) := ih
      simp only [Bindings.substitute, List.map_cons, List.lookup_cons]
      cases name == other
      · exact ih
      · rfl

/-- **Bindings that replace, in a type in which parameters were replaced before, nothing but what was
put in.**  At a free place without a binding before, there is none now; and of what was put in at the
others, no signature around the place captures what is bound now. -/
def Bindings.Apart (b c : Bindings) (places : List Occurrence) : Prop :=
  ∀ o ∈ places, o.IsFree → match c.lookup o.name with
    | none => b.lookup o.name = none
    | some put => ∀ name ∈ put.freeParams, b.lookup name ≠ none → ¬o.Declares name

namespace Bindings.Apart

variable {b c : Bindings} {places more : List Occurrence}

lemma append : b.Apart c (places ++ more) ↔ b.Apart c places ∧ b.Apart c more :=
  List.forall_mem_append

/-- Inside a signature its type parameters hide bindings. -/
lemma inside {names : List String} (h : b.Apart c (places.map (·.under names))) :
    (b.hiding names).Apart (c.hiding names) places := by
  intro o ho hfree
  by_cases hname : o.name ∈ names
  · rw [lookup_hiding_of_mem hname]
    exact lookup_hiding_of_mem hname
  · have houter := h _ (List.mem_map_of_mem ho) (Occurrence.isFree_under.mpr ⟨hname, hfree⟩)
    rw [Occurrence.name_under] at houter
    rw [lookup_hiding hname]
    cases hput : c.lookup o.name with
    | none =>
        rw [hput] at houter
        exact (lookup_hiding hname).trans houter
    | some put =>
        rw [hput] at houter
        intro name hmem hbound hdeclares
        have hname' : name ∉ names := fun hm => hbound (lookup_hiding_of_mem hm)
        rw [lookup_hiding hname'] at hbound
        obtain ⟨inner, hinner, hdeclared⟩ := hdeclares
        exact houter name hmem hbound ⟨inner, List.mem_cons_of_mem _ hinner, hdeclared⟩

/-- Inside a signature, what is put in for its free type parameters mentions nothing that is hidden
and bound outside. -/
lemma lookup_hiding_substitute {names : List String}
    (h : b.Apart c (places.map (·.under names))) {name : String} (hname : name ∈ freeNames places) :
    ((c.hiding names).substitute (b.hiding names)).lookup name =
      ((c.substitute b).hiding names).lookup name := by
  obtain ⟨o, ho, hfree, rfl⟩ := mem_freeNames.mp hname
  by_cases hdeclared : o.name ∈ names
  · rw [lookup_substitute, lookup_hiding_of_mem hdeclared, lookup_hiding_of_mem hdeclared]
    rfl
  · have houter := h _ (List.mem_map_of_mem ho) (Occurrence.isFree_under.mpr ⟨hdeclared, hfree⟩)
    rw [Occurrence.name_under] at houter
    rw [lookup_substitute, lookup_hiding hdeclared, lookup_hiding hdeclared, lookup_substitute]
    cases hput : c.lookup o.name with
    | none => rfl
    | some put =>
        rw [hput] at houter
        refine congrArg some (Ty.substitute_congr put fun other hother => ?_)
        by_cases hhidden : other ∈ names
        · rw [lookup_hiding_of_mem hhidden]
          by_contra hbound
          exact houter other hother (Ne.symm hbound) ⟨names, List.mem_cons_self, hhidden⟩
        · exact lookup_hiding hhidden

end Bindings.Apart

section

mutual

/-- **Replacing twice is replacing once**, where the second replaces nothing but what was put in and
nothing of that is captured. -/
lemma Ty.substitute_substitute {b c : Bindings} : ∀ ty : Ty, b.Apart c ty.occurrences →
    (ty.substitute c).substitute b = ty.substitute (c.substitute b)
  | .nominal id args, h => congrArg (Ty.nominal id) (Ty.substituteAll_substitute args h)
  | .function sig, h => congrArg Ty.function (Signature.substitute_substitute sig h)
  | .array element, h => congrArg Ty.array (Ty.substitute_substitute element h)
  | .tuple elements, h => congrArg Ty.tuple (Ty.substituteAll_substitute elements h)
  | .shape members, h => congrArg Ty.shape (Member.substituteAll_substitute members h)
  | .union members, h => congrArg Ty.union (Ty.substituteAll_substitute members h)
  | .intersection members, h => congrArg Ty.intersection (Ty.substituteAll_substitute members h)
  | .param name, h => by
      have hplace := h ⟨name, []⟩ List.mem_cons_self
        (by simp [Occurrence.IsFree, Occurrence.Declares])
      simp only [Ty.substitute, Bindings.lookup_substitute]
      cases hput : c.lookup name with
      | none =>
          simp only [hput] at hplace
          simp only [Option.getD_none, Option.map_none, Ty.substitute, hplace]
      | some put => rfl
  | .primitive _, _ | .alias _, _ | .literal _ _, _ | .raw _, _ => rfl

lemma Ty.substituteAll_substitute {b c : Bindings} : ∀ tys : List Ty,
    b.Apart c (Ty.occurrencesAll tys) →
      Ty.substituteAll b (Ty.substituteAll c tys) = Ty.substituteAll (c.substitute b) tys
  | [], _ => rfl
  | ty :: tys, h => by
      obtain ⟨hty, htys⟩ := Bindings.Apart.append.mp h
      rw [Ty.substituteAll, Ty.substituteAll, Ty.substituteAll, Ty.substitute_substitute ty hty,
        Ty.substituteAll_substitute tys htys]

lemma Signature.substitute_substitute {b c : Bindings} : ∀ sig : Signature,
    b.Apart c sig.occurrences → (sig.substitute c).substitute b = sig.substitute (c.substitute b)
  | ⟨typeParams, params, result⟩, h => by
      obtain ⟨hparams, hresult⟩ := Bindings.Apart.append.mp h.inside
      have hinner : ∀ name ∈ Param.freeParamsAll params ++ result.freeParams,
          ((c.hiding typeParams).substitute (b.hiding typeParams)).lookup name =
            ((c.substitute b).hiding typeParams).lookup name := by
        intro name hname
        rw [Param.freeParamsAll_eq, Ty.freeParams_eq, ← freeNames_append] at hname
        exact Bindings.Apart.lookup_hiding_substitute h hname
      obtain ⟨hparams', hresult'⟩ := List.forall_mem_append.mp hinner
      simp only [Signature.substitute]
      rw [Param.substituteAll_substitute params hparams, Ty.substitute_substitute result hresult,
        Param.substituteAll_congr params hparams', Ty.substitute_congr result hresult']

lemma Param.substitute_substitute {b c : Bindings} : ∀ p : Param, b.Apart c p.occurrences →
    (p.substitute c).substitute b = p.substitute (c.substitute b)
  | ⟨name, type, optional, rest⟩, h =>
      congrArg (Param.mk name · optional rest) (Ty.substitute_substitute type h)

lemma Param.substituteAll_substitute {b c : Bindings} : ∀ ps : List Param,
    b.Apart c (Param.occurrencesAll ps) →
      Param.substituteAll b (Param.substituteAll c ps) = Param.substituteAll (c.substitute b) ps
  | [], _ => rfl
  | p :: ps, h => by
      obtain ⟨hp, hps⟩ := Bindings.Apart.append.mp h
      rw [Param.substituteAll, Param.substituteAll, Param.substituteAll,
        Param.substitute_substitute p hp, Param.substituteAll_substitute ps hps]

lemma MemberKind.substitute_substitute {b c : Bindings} : ∀ kind : MemberKind,
    b.Apart c kind.occurrences →
      (kind.substitute c).substitute b = kind.substitute (c.substitute b)
  | .property type optional readonly, h =>
      congrArg (MemberKind.property · optional readonly) (Ty.substitute_substitute type h)
  | .method sig optional, h =>
      congrArg (MemberKind.method · optional) (Signature.substitute_substitute sig h)
  | .call sig, h => congrArg MemberKind.call (Signature.substitute_substitute sig h)
  | .construct sig, h => congrArg MemberKind.construct (Signature.substitute_substitute sig h)
  | .index sig, h => congrArg MemberKind.index (Signature.substitute_substitute sig h)
  | .nested _, _ => rfl

lemma Member.substitute_substitute {b c : Bindings} : ∀ m : Member, b.Apart c m.occurrences →
    (m.substitute c).substitute b = m.substitute (c.substitute b)
  | ⟨name, kind, isStatic, span⟩, h =>
      congrArg (Member.mk name · isStatic span) (MemberKind.substitute_substitute kind h)

lemma Member.substituteAll_substitute {b c : Bindings} : ∀ ms : List Member,
    b.Apart c (Member.occurrencesAll ms) →
      Member.substituteAll b (Member.substituteAll c ms) = Member.substituteAll (c.substitute b) ms
  | [], _ => rfl
  | m :: ms, h => by
      obtain ⟨hm, hms⟩ := Bindings.Apart.append.mp h
      rw [Member.substituteAll, Member.substituteAll, Member.substituteAll,
        Member.substitute_substitute m hm, Member.substituteAll_substitute ms hms]

end

end

end Interop
