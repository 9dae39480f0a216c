import Interop.Proofs.TypeParameters

/-!
# Replacing type parameters, place by place

A type parameter is mentioned at places of a type.  Around each place are the signatures in which it
stands, and what is mentioned there belongs to the innermost of them that declares its name, or is
free.

* `Ty.occurrences` — the places at which a type mentions type parameters, in order.
* `Ty.occurrences_substitute` — replacing type parameters touches exactly the free places with a
  binding; what is put in stands inside the signatures around its place.
* `Bindings.Captures` — a signature around such a place declares a name that is free in what is put
  in there.
* **`substitute_scopes`** — which type parameters are free afterwards.
-/

namespace Interop

/-! ## Places -/

/-- A place at which a type parameter is mentioned. -/
structure Occurrence where
  name : String
  /-- The type parameters that the signatures around the place declare, outermost first. -/
  around : List (List String) := []
  deriving DecidableEq, Repr

namespace Occurrence

/-- Whether a signature around the place declares a name. -/
def Declares (o : Occurrence) (name : String) : Prop :=
  ∃ names ∈ o.around, name ∈ names

/-- Whether no signature around the place declares the name that is mentioned. -/
def IsFree (o : Occurrence) : Prop :=
  ¬o.Declares o.name

instance (o : Occurrence) (name : String) : Decidable (o.Declares name) :=
  inferInstanceAs (Decidable (∃ names ∈ o.around, name ∈ names))

instance (o : Occurrence) : Decidable o.IsFree :=
  inferInstanceAs (Decidable ¬o.Declares o.name)

/-- The place, seen from outside a signature that declares type parameters. -/
def under (names : List String) (o : Occurrence) : Occurrence :=
  { o with around := names :: o.around }

/-- The place, seen from outside several signatures. -/
def within (around : List (List String)) (o : Occurrence) : Occurrence :=
  { o with around := around ++ o.around }

@[simp] lemma name_under (names : List String) (o : Occurrence) : (o.under names).name = o.name :=
  rfl

@[simp] lemma isFree_under {names : List String} {o : Occurrence} :
    (o.under names).IsFree ↔ o.name ∉ names ∧ o.IsFree := by
  simp [IsFree, Declares, under]

@[simp] lemma isFree_within {outer o : Occurrence} :
    (o.within outer.around).IsFree ↔ ¬outer.Declares o.name ∧ o.IsFree := by
  simp only [IsFree, Declares, within, List.mem_append, or_and_right, exists_or, not_or]

end Occurrence

mutual

/-- The places at which a type mentions type parameters. -/
def Ty.occurrences : Ty → List Occurrence
  | .nominal _ args => Ty.occurrencesAll args
  | .function signature => signature.occurrences
  | .array element => element.occurrences
  | .tuple elements => Ty.occurrencesAll elements
  | .shape members => Member.occurrencesAll members
  | .param name => [⟨name, []⟩]
  | .union members => Ty.occurrencesAll members
  | .intersection members => Ty.occurrencesAll members
  | .primitive _ | .alias _ | .literal _ _ | .raw _ => []

/-- The places in types. -/
def Ty.occurrencesAll : List Ty → List Occurrence
  | [] => []
  | ty :: tys => ty.occurrences ++ Ty.occurrencesAll tys

/-- The places in a signature. -/
def Signature.occurrences : Signature → List Occurrence
  | ⟨typeParams, params, result⟩ =>
    (Param.occurrencesAll params ++ result.occurrences).map (·.under typeParams)

/-- The places in the type of a parameter. -/
def Param.occurrences : Param → List Occurrence
  | ⟨_, type, _, _⟩ => type.occurrences

/-- The places in the types of parameters. -/
def Param.occurrencesAll : List Param → List Occurrence
  | [] => []
  | p :: ps => p.occurrences ++ Param.occurrencesAll ps

/-- The places in what a member is. -/
def MemberKind.occurrences : MemberKind → List Occurrence
  | .property type _ _ => type.occurrences
  | .method signature _ => signature.occurrences
  | .call signature => signature.occurrences
  | .construct signature => signature.occurrences
  | .index signature => signature.occurrences
  | .nested _ => []

/-- The places in a member. -/
def Member.occurrences : Member → List Occurrence
  | ⟨_, kind, _, _⟩ => kind.occurrences

/-- The places in members. -/
def Member.occurrencesAll : List Member → List Occurrence
  | [] => []
  | m :: ms => m.occurrences ++ Member.occurrencesAll ms

end

/-! ## Free places -/

/-- The names that are mentioned at free places. -/
def freeNames (places : List Occurrence) : List String :=
  (places.filter fun o => decide o.IsFree).map (·.name)

lemma mem_freeNames {places : List Occurrence} {name : String} :
    name ∈ freeNames places ↔ ∃ o ∈ places, o.IsFree ∧ o.name = name := by
  simp [freeNames, and_assoc]

lemma freeNames_append (first second : List Occurrence) :
    freeNames (first ++ second) = freeNames first ++ freeNames second := by
  simp [freeNames]

lemma freeNames_under (names : List String) (places : List Occurrence) :
    freeNames (places.map (·.under names)) =
      (freeNames places).filter fun name => !names.contains name := by
  induction places with
  | nil => rfl
  | cons o rest ih =>
      simp only [freeNames, List.map_cons, List.filter_cons, Occurrence.isFree_under] at ih ⊢
      by_cases hfree : o.IsFree <;> by_cases hname : o.name ∈ names <;> simp [hfree, hname, ih]

section

mutual

/-- The type parameters that a type mentions are those at its free places. -/
lemma Ty.freeParams_eq : ∀ ty : Ty, ty.freeParams = freeNames ty.occurrences
  | .nominal _ args => Ty.freeParamsAll_eq args
  | .function sig => Signature.freeParams_eq sig
  | .array element => Ty.freeParams_eq element
  | .tuple elements => Ty.freeParamsAll_eq elements
  | .shape members => Member.freeParamsAll_eq members
  | .param _ => rfl
  | .union members => Ty.freeParamsAll_eq members
  | .intersection members => Ty.freeParamsAll_eq members
  | .primitive _ | .alias _ | .literal _ _ | .raw _ => rfl

lemma Ty.freeParamsAll_eq : ∀ tys : List Ty,
    Ty.freeParamsAll tys = freeNames (Ty.occurrencesAll tys)
  | [] => rfl
  | ty :: tys => by
      rw [Ty.freeParamsAll, Ty.occurrencesAll, freeNames_append, Ty.freeParams_eq ty,
        Ty.freeParamsAll_eq tys]

lemma Signature.freeParams_eq : ∀ sig : Signature, sig.freeParams = freeNames sig.occurrences
  | ⟨typeParams, params, result⟩ => by
      rw [Signature.freeParams, Signature.occurrences, freeNames_under, freeNames_append,
        Param.freeParamsAll_eq params, Ty.freeParams_eq result]

lemma Param.freeParams_eq : ∀ p : Param, p.freeParams = freeNames p.occurrences
  | ⟨_, type, _, _⟩ => Ty.freeParams_eq type

lemma Param.freeParamsAll_eq : ∀ ps : List Param,
    Param.freeParamsAll ps = freeNames (Param.occurrencesAll ps)
  | [] => rfl
  | p :: ps => by
      rw [Param.freeParamsAll, Param.occurrencesAll, freeNames_append, Param.freeParams_eq p,
        Param.freeParamsAll_eq ps]

lemma MemberKind.freeParams_eq : ∀ kind : MemberKind,
    kind.freeParams = freeNames kind.occurrences
  | .property type _ _ => Ty.freeParams_eq type
  | .method sig _ => Signature.freeParams_eq sig
  | .call sig => Signature.freeParams_eq sig
  | .construct sig => Signature.freeParams_eq sig
  | .index sig => Signature.freeParams_eq sig
  | .nested _ => rfl

lemma Member.freeParams_eq : ∀ m : Member, m.freeParams = freeNames m.occurrences
  | ⟨_, kind, _, _⟩ => MemberKind.freeParams_eq kind

lemma Member.freeParamsAll_eq : ∀ ms : List Member,
    Member.freeParamsAll ms = freeNames (Member.occurrencesAll ms)
  | [] => rfl
  | m :: ms => by
      rw [Member.freeParamsAll, Member.occurrencesAll, freeNames_append, Member.freeParams_eq m,
        Member.freeParamsAll_eq ms]

end

end

/-! ## Replacing -/

/-- What stands at a place once type parameters are replaced: at a free place with a binding the
places of what is put in, inside the same signatures; at any other place what was there. -/
def Bindings.replace (b : Bindings) (o : Occurrence) : List Occurrence :=
  match b.lookup o.name with
  | some ty => if o.IsFree then ty.occurrences.map (·.within o.around) else [o]
  | none => [o]

namespace Bindings

variable {b : Bindings} {o : Occurrence}

lemma replace_of_not_isFree (h : ¬o.IsFree) : b.replace o = [o] := by
  unfold replace
  split
  · rw [if_neg h]
  · rfl

lemma replace_of_none (h : b.lookup o.name = none) : b.replace o = [o] := by
  rw [replace, h]

lemma replace_of_some {ty : Ty} (hfree : o.IsFree) (h : b.lookup o.name = some ty) :
    b.replace o = ty.occurrences.map (·.within o.around) := by
  rw [replace, h]
  exact if_pos hfree

/-- Inside a signature, its type parameters hide bindings; outside it, places with their names are
not free. -/
lemma replace_under (b : Bindings) (names : List String) (o : Occurrence) :
    b.replace (o.under names) = ((b.hiding names).replace o).map (·.under names) := by
  by_cases hfree : (o.under names).IsFree
  · obtain ⟨hname, ho⟩ := Occurrence.isFree_under.mp hfree
    have hlookup : (b.hiding names).lookup o.name = b.lookup o.name := lookup_hiding hname
    cases h : b.lookup o.name with
    | none =>
        have hunder : b.replace (o.under names) = [o.under names] := replace_of_none h
        rw [hunder, replace_of_none (hlookup.trans h), List.map_singleton]
    | some ty =>
        rw [replace_of_some hfree h, replace_of_some ho (hlookup.trans h), List.map_map]
        rfl
  · rw [replace_of_not_isFree hfree]
    by_cases ho : o.IsFree
    · have hname : o.name ∈ names := by
        by_contra hnot
        exact hfree (Occurrence.isFree_under.mpr ⟨hnot, ho⟩)
      rw [replace_of_none (lookup_hiding_of_mem hname), List.map_singleton]
    · rw [replace_of_not_isFree ho, List.map_singleton]

end Bindings

section

mutual

/-- **Type parameters are replaced place by place.** -/
lemma Ty.occurrences_substitute {b : Bindings} : ∀ ty : Ty,
    (ty.substitute b).occurrences = ty.occurrences.flatMap b.replace
  | .nominal _ args => Ty.occurrencesAll_substitute args
  | .function sig => Signature.occurrences_substitute sig
  | .array element => Ty.occurrences_substitute element
  | .tuple elements => Ty.occurrencesAll_substitute elements
  | .shape members => Member.occurrencesAll_substitute members
  | .union members => Ty.occurrencesAll_substitute members
  | .intersection members => Ty.occurrencesAll_substitute members
  | .param name => by
      have hfree : Occurrence.IsFree ⟨name, []⟩ := by simp [Occurrence.IsFree, Occurrence.Declares]
      simp only [Ty.substitute, Ty.occurrences, List.flatMap_singleton]
      cases h : b.lookup name with
      | none => rw [Bindings.replace_of_none h]; rfl
      | some ty =>
          rw [Bindings.replace_of_some hfree h]
          exact (List.map_id _).symm
  | .primitive _ | .alias _ | .literal _ _ | .raw _ => rfl

lemma Ty.occurrencesAll_substitute {b : Bindings} : ∀ tys : List Ty,
    Ty.occurrencesAll (Ty.substituteAll b tys) = (Ty.occurrencesAll tys).flatMap b.replace
  | [] => rfl
  | ty :: tys => by
      rw [Ty.substituteAll, Ty.occurrencesAll, Ty.occurrencesAll, List.flatMap_append,
        Ty.occurrences_substitute ty, Ty.occurrencesAll_substitute tys]

lemma Signature.occurrences_substitute {b : Bindings} : ∀ sig : Signature,
    (sig.substitute b).occurrences = sig.occurrences.flatMap b.replace
  | ⟨typeParams, params, result⟩ => by
      simp only [Signature.substitute, Signature.occurrences]
      rw [Param.occurrencesAll_substitute params, Ty.occurrences_substitute result,
        ← List.flatMap_append, List.map_flatMap, List.flatMap_map]
      simp only [Bindings.replace_under]

lemma Param.occurrences_substitute {b : Bindings} : ∀ p : Param,
    (p.substitute b).occurrences = p.occurrences.flatMap b.replace
  | ⟨_, type, _, _⟩ => Ty.occurrences_substitute type

lemma Param.occurrencesAll_substitute {b : Bindings} : ∀ ps : List Param,
    Param.occurrencesAll (Param.substituteAll b ps) = (Param.occurrencesAll ps).flatMap b.replace
  | [] => rfl
  | p :: ps => by
      rw [Param.substituteAll, Param.occurrencesAll, Param.occurrencesAll, List.flatMap_append,
        Param.occurrences_substitute p, Param.occurrencesAll_substitute ps]

lemma MemberKind.occurrences_substitute {b : Bindings} : ∀ kind : MemberKind,
    (kind.substitute b).occurrences = kind.occurrences.flatMap b.replace
  | .property type _ _ => Ty.occurrences_substitute type
  | .method sig _ => Signature.occurrences_substitute sig
  | .call sig => Signature.occurrences_substitute sig
  | .construct sig => Signature.occurrences_substitute sig
  | .index sig => Signature.occurrences_substitute sig
  | .nested _ => rfl

lemma Member.occurrences_substitute {b : Bindings} : ∀ m : Member,
    (m.substitute b).occurrences = m.occurrences.flatMap b.replace
  | ⟨_, kind, _, _⟩ => MemberKind.occurrences_substitute kind

lemma Member.occurrencesAll_substitute {b : Bindings} : ∀ ms : List Member,
    Member.occurrencesAll (Member.substituteAll b ms) =
      (Member.occurrencesAll ms).flatMap b.replace
  | [] => rfl
  | m :: ms => by
      rw [Member.substituteAll, Member.occurrencesAll, Member.occurrencesAll,
        List.flatMap_append, Member.occurrences_substitute m, Member.occurrencesAll_substitute ms]

end

end

/-! ## What is free afterwards -/

/-- **A type parameter is captured**: it is free in what is put in at a place, and a signature around
that place declares its name. -/
def Bindings.Captures (b : Bindings) (ty : Ty) (name : String) : Prop :=
  ∃ o ∈ ty.occurrences, o.IsFree ∧ ∃ bound, b.lookup o.name = some bound ∧
    name ∈ bound.freeParams ∧ o.Declares name

/-- A free place afterwards is one without a binding, or lies in what was put in at one. -/
lemma Ty.mem_freeParams_substitute_iff {b : Bindings} {ty : Ty} {name : String} :
    name ∈ (ty.substitute b).freeParams ↔ (name ∈ ty.freeParams ∧ b.lookup name = none) ∨
      ∃ o ∈ ty.occurrences, o.IsFree ∧ ∃ bound, b.lookup o.name = some bound ∧
        name ∈ bound.freeParams ∧ ¬o.Declares name := by
  simp only [Ty.freeParams_eq, mem_freeNames, Ty.occurrences_substitute, List.mem_flatMap]
  constructor
  · rintro ⟨p, ⟨o, ho, hp⟩, hfree, rfl⟩
    by_cases hplace : o.IsFree
    · cases hlookup : b.lookup o.name with
      | none =>
          obtain rfl : p = o := by simpa [Bindings.replace_of_none hlookup] using hp
          exact Or.inl ⟨⟨p, ho, hfree, rfl⟩, hlookup⟩
      | some bound =>
          rw [Bindings.replace_of_some hplace hlookup] at hp
          obtain ⟨q, hq, rfl⟩ := List.mem_map.mp hp
          obtain ⟨hdeclares, hqfree⟩ := Occurrence.isFree_within.mp hfree
          exact Or.inr ⟨o, ho, hplace, bound, hlookup, ⟨q, hq, hqfree, rfl⟩, hdeclares⟩
    · obtain rfl : p = o := by simpa [Bindings.replace_of_not_isFree hplace] using hp
      exact absurd hfree hplace
  · rintro (⟨⟨o, ho, hfree, rfl⟩, hlookup⟩ |
      ⟨o, ho, hplace, bound, hlookup, ⟨q, hq, hqfree, rfl⟩, hdeclares⟩)
    · exact ⟨o, ⟨o, ho, by simp [Bindings.replace_of_none hlookup]⟩, hfree, rfl⟩
    · refine ⟨q.within o.around, ⟨o, ho, ?_⟩, Occurrence.isFree_within.mpr ⟨hdeclares, hqfree⟩, rfl⟩
      rw [Bindings.replace_of_some hplace hlookup]
      exact List.mem_map_of_mem hq

/-- **Replacing type parameters respects scopes, except that it captures.**  Place by place, what a
signature declares is never replaced, and every free type parameter with a binding is.  A name is
free afterwards exactly if it was free and has no binding, or is free in what is put in at some place
around which no signature declares it.  So where nothing is captured, the free type parameters are
those without a binding, and those of the bindings of the others. -/
theorem substitute_scopes (ty : Ty) (b : Bindings) :
    (ty.substitute b).occurrences = ty.occurrences.flatMap b.replace ∧
      (∀ name, name ∈ (ty.substitute b).freeParams ↔
        (name ∈ ty.freeParams ∧ b.lookup name = none) ∨
          ∃ o ∈ ty.occurrences, o.IsFree ∧ ∃ bound, b.lookup o.name = some bound ∧
            name ∈ bound.freeParams ∧ ¬o.Declares name) ∧
      ∀ name, ¬b.Captures ty name → (name ∈ (ty.substitute b).freeParams ↔
        (name ∈ ty.freeParams ∧ b.lookup name = none) ∨
          ∃ x ∈ ty.freeParams, ∃ bound, b.lookup x = some bound ∧ name ∈ bound.freeParams) := by
  refine ⟨Ty.occurrences_substitute ty, fun name => Ty.mem_freeParams_substitute_iff,
    fun name hcaptures => ?_⟩
  rw [Ty.mem_freeParams_substitute_iff]
  refine or_congr_right ?_
  simp only [Ty.freeParams_eq ty, mem_freeNames]
  constructor
  · rintro ⟨o, ho, hfree, bound, hlookup, hname, -⟩
    exact ⟨o.name, ⟨o, ho, hfree, rfl⟩, bound, hlookup, hname⟩
  · rintro ⟨x, ⟨o, ho, hfree, rfl⟩, bound, hlookup, hname⟩
    exact ⟨o, ho, hfree, bound, hlookup, hname, fun hdeclares =>
      hcaptures ⟨o, ho, hfree, bound, hlookup, hname, hdeclares⟩⟩

/-- A function type whose parameter `y` is of its own type parameter `U`. -/
def takesOwn : Ty :=
  .function ⟨["U"], [⟨"x", .param "T", false, false⟩, ⟨"y", .param "U", false, false⟩], .param "V"⟩

/-- `U` is bound in the type and is not replaced; `T` is replaced, and `W` is free then. -/
theorem substitute_scopes_shadowed :
    ¬Bindings.Captures [("T", .array (.param "W")), ("U", .any)] takesOwn "W" ∧
      ((takesOwn.substitute [("T", .array (.param "W")), ("U", .any)]).freeParams = ["W", "V"] ∧
        ("W" ∈ (takesOwn.substitute [("T", .array (.param "W")), ("U", .any)]).freeParams ↔
          ("W" ∈ takesOwn.freeParams ∧
            List.lookup "W" [("T", Ty.array (.param "W")), ("U", .any)] = none) ∨
          ∃ x ∈ takesOwn.freeParams, ∃ bound,
            List.lookup x [("T", Ty.array (.param "W")), ("U", .any)] = some bound ∧
              "W" ∈ bound.freeParams)) := by
  have hnot : ¬Bindings.Captures [("T", .array (.param "W")), ("U", .any)] takesOwn "W" := by
    rintro ⟨o, ho, -, -, -, -, hdeclares⟩
    have hall : ∀ o ∈ takesOwn.occurrences, ¬o.Declares "W" := by decide
    exact hall o ho hdeclares
  exact ⟨hnot, by decide, (substitute_scopes takesOwn _).2.2 "W" hnot⟩

/-- With `U` for `T`, the `U` that is put in becomes the function's own: no `U` is free then, though
it is free in what is put in for a free type parameter. -/
theorem substitute_captures :
    "T" ∈ takesOwn.freeParams ∧ List.lookup "T" [("T", Ty.param "U")] = some (.param "U") ∧
      "U" ∈ (Ty.param "U").freeParams ∧
      "U" ∉ (takesOwn.substitute [("T", .param "U")]).freeParams := by
  refine ⟨by decide, rfl, by decide, by decide⟩

end Interop
