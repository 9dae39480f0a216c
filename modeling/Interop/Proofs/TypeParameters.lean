import Interop.Symbol.Table
import Interop.Type.Substitution
import Mathlib.Tactic.Common

/-!
# Type parameters in types

Which type parameters a type mentions decides in which scopes it can be written.  A signature
declares some of those that are mentioned in it, and replacing type parameters brings in those of
the types that are put in.

* `Ty.freeParams`, `Signature.freeParams`, … — the type parameters that are mentioned and not
  declared by a signature around them.
* `Ty.mem_freeParams_substitute` — replacing type parameters.
* `SymbolTable.AliasesClosed` — aliases mention no type parameters but their own.
-/

namespace Interop

/-! ## The type parameters that are mentioned -/

mutual

/-- The type parameters that a type mentions. -/
def Ty.freeParams : Ty → List String
  | .nominal _ args => Ty.freeParamsAll args
  | .function signature => signature.freeParams
  | .array element => element.freeParams
  | .tuple elements => Ty.freeParamsAll elements
  | .shape members => Member.freeParamsAll members
  | .param name => [name]
  | .union members => Ty.freeParamsAll members
  | .intersection members => Ty.freeParamsAll members
  | .primitive _ | .alias _ | .literal _ _ | .raw _ => []

/-- The type parameters that types mention. -/
def Ty.freeParamsAll : List Ty → List String
  | [] => []
  | ty :: tys => ty.freeParams ++ Ty.freeParamsAll tys

/-- The type parameters that a signature mentions and does not declare. -/
def Signature.freeParams : Signature → List String
  | ⟨typeParams, params, result⟩ =>
    (Param.freeParamsAll params ++ result.freeParams).filter fun name => !typeParams.contains name

/-- The type parameters that the type of a parameter mentions. -/
def Param.freeParams : Param → List String
  | ⟨_, type, _, _⟩ => type.freeParams

/-- The type parameters that the types of parameters mention. -/
def Param.freeParamsAll : List Param → List String
  | [] => []
  | p :: ps => p.freeParams ++ Param.freeParamsAll ps

/-- The type parameters that what a member is mentions. -/
def MemberKind.freeParams : MemberKind → List String
  | .property type _ _ => type.freeParams
  | .method signature _ => signature.freeParams
  | .call signature => signature.freeParams
  | .construct signature => signature.freeParams
  | .index signature => signature.freeParams
  | .nested _ => []

/-- The type parameters that a member mentions. -/
def Member.freeParams : Member → List String
  | ⟨_, kind, _, _⟩ => kind.freeParams

/-- The type parameters that members mention. -/
def Member.freeParamsAll : List Member → List String
  | [] => []
  | m :: ms => m.freeParams ++ Member.freeParamsAll ms

end

lemma Ty.mem_freeParamsAll {name : String} : ∀ {tys : List Ty},
    name ∈ Ty.freeParamsAll tys ↔ ∃ ty ∈ tys, name ∈ ty.freeParams
  | [] => by simp [Ty.freeParamsAll]
  | ty :: tys => by simp [Ty.freeParamsAll, @Ty.mem_freeParamsAll name tys]

lemma Param.mem_freeParamsAll {name : String} : ∀ {ps : List Param},
    name ∈ Param.freeParamsAll ps ↔ ∃ p ∈ ps, name ∈ p.type.freeParams
  | [] => by simp [Param.freeParamsAll]
  | ⟨_, type, _, _⟩ :: ps => by
      simp [Param.freeParamsAll, Param.freeParams, @Param.mem_freeParamsAll name ps]

/-- What a signature mentions is mentioned in its parts and not declared. -/
lemma Signature.mem_freeParams {name : String} {sig : Signature} :
    name ∈ sig.freeParams ↔ name ∉ sig.typeParams ∧
      ((∃ p ∈ sig.params, name ∈ p.type.freeParams) ∨ name ∈ sig.result.freeParams) := by
  obtain ⟨typeParams, params, result⟩ := sig
  simp only [Signature.freeParams, List.mem_filter, List.mem_append, Param.mem_freeParamsAll,
    Bool.not_eq_true', List.contains_eq_mem, decide_eq_false_iff_not]
  exact And.comm

/-! ## Replacing type parameters -/

/-- Whether a type that is put in mentions a type parameter. -/
def Bindings.MentionsParam (b : Bindings) (name : String) : Prop :=
  ∃ entry ∈ b, name ∈ entry.2.freeParams

/-- What may be mentioned once type parameters are replaced: what is left, and what is put in. -/
def Bindings.Leaves (b : Bindings) (before : List String) (name : String) : Prop :=
  (name ∈ before ∧ b.lookup name = none) ∨ b.MentionsParam name

namespace Bindings

variable {b : Bindings} {name : String}

lemma lookup_hiding {names : List String} (h : name ∉ names) :
    (b.hiding names).lookup name = b.lookup name := by
  induction b with
  | nil => rfl
  | cons entry rest ih =>
      obtain ⟨other, ty⟩ := entry
      simp only [Bindings.hiding, List.filter_cons] at ih ⊢
      by_cases hname : name = other
      · subst hname
        simp [h]
      · have hne : (name == other) = false := by simpa using hname
        split_ifs
        · rw [List.lookup_cons, List.lookup_cons, hne, ih]
        · rw [List.lookup_cons, hne, ih]

lemma lookup_hiding_of_mem {names : List String} (h : name ∈ names) :
    (b.hiding names).lookup name = none := by
  rw [List.lookup_eq_none_iff]
  intro entry hentry
  have hkept : entry.1 ∉ names := by simpa using (List.mem_filter.mp hentry).2
  simpa using fun heq : name = entry.1 => hkept (heq ▸ h)

lemma MentionsParam.of_hiding {names : List String} (h : (b.hiding names).MentionsParam name) :
    b.MentionsParam name := by
  obtain ⟨entry, hentry, hname⟩ := h
  exact ⟨entry, (List.mem_filter.mp hentry).1, hname⟩

lemma Leaves.imp {before after : List String} (h : b.Leaves before name)
    (hsub : before ⊆ after) : b.Leaves after name :=
  h.imp_left fun hb => ⟨hsub hb.1, hb.2⟩

end Bindings

section

variable {name : String}

mutual

/-- **Replacing type parameters** leaves those that nothing is put in for, and brings in those of the
types that are put in. -/
lemma Ty.mem_freeParams_substitute {b : Bindings} : ∀ ty : Ty,
    name ∈ (ty.substitute b).freeParams → b.Leaves ty.freeParams name
  | .nominal _ args, h => Ty.mem_freeParamsAll_substitute args h
  | .function sig, h => Signature.mem_freeParams_substitute sig h
  | .array element, h => Ty.mem_freeParams_substitute element h
  | .tuple elements, h => Ty.mem_freeParamsAll_substitute elements h
  | .shape members, h => Member.mem_freeParamsAll_substitute members h
  | .union members, h => Ty.mem_freeParamsAll_substitute members h
  | .intersection members, h => Ty.mem_freeParamsAll_substitute members h
  | .param other, h => by
      simp only [Ty.substitute] at h
      cases hlookup : b.lookup other with
      | none =>
          rw [hlookup] at h
          obtain rfl := List.mem_singleton.mp h
          exact Or.inl ⟨List.mem_cons_self, hlookup⟩
      | some ty =>
          obtain ⟨before, after, rfl, -⟩ := List.lookup_eq_some_iff.mp hlookup
          exact Or.inr ⟨(other, ty), by simp, by simpa [hlookup] using h⟩

lemma Ty.mem_freeParamsAll_substitute {b : Bindings} : ∀ tys : List Ty,
    name ∈ Ty.freeParamsAll (Ty.substituteAll b tys) → b.Leaves (Ty.freeParamsAll tys) name
  | ty :: tys, h => by
      rcases List.mem_append.mp h with h | h
      · exact (Ty.mem_freeParams_substitute ty h).imp (List.subset_append_left _ _)
      · exact (Ty.mem_freeParamsAll_substitute tys h).imp (List.subset_append_right _ _)

lemma Signature.mem_freeParams_substitute {b : Bindings} : ∀ sig : Signature,
    name ∈ (sig.substitute b).freeParams → b.Leaves sig.freeParams name
  | ⟨typeParams, params, result⟩, h => by
      simp only [Signature.substitute, Signature.freeParams, List.mem_filter, List.mem_append,
        Bool.not_eq_true', List.contains_eq_mem, decide_eq_false_iff_not] at h
      obtain ⟨h, hname⟩ := h
      have hparts : (b.hiding typeParams).Leaves (Param.freeParamsAll params ++ result.freeParams)
          name := by
        rcases h with h | h
        · exact (Param.mem_freeParamsAll_substitute params h).imp (List.subset_append_left _ _)
        · exact (Ty.mem_freeParams_substitute result h).imp (List.subset_append_right _ _)
      rcases hparts with ⟨hmem, hlookup⟩ | hbound
      · rw [Bindings.lookup_hiding hname] at hlookup
        exact Or.inl ⟨List.mem_filter.mpr ⟨hmem, by simpa using hname⟩, hlookup⟩
      · exact Or.inr hbound.of_hiding

lemma Param.mem_freeParams_substitute {b : Bindings} : ∀ p : Param,
    name ∈ (p.substitute b).freeParams → b.Leaves p.freeParams name
  | ⟨_, type, _, _⟩, h => Ty.mem_freeParams_substitute type h

lemma Param.mem_freeParamsAll_substitute {b : Bindings} : ∀ ps : List Param,
    name ∈ Param.freeParamsAll (Param.substituteAll b ps) → b.Leaves (Param.freeParamsAll ps) name
  | p :: ps, h => by
      rcases List.mem_append.mp h with h | h
      · exact (Param.mem_freeParams_substitute p h).imp (List.subset_append_left _ _)
      · exact (Param.mem_freeParamsAll_substitute ps h).imp (List.subset_append_right _ _)

lemma MemberKind.mem_freeParams_substitute {b : Bindings} : ∀ kind : MemberKind,
    name ∈ (kind.substitute b).freeParams → b.Leaves kind.freeParams name
  | .property type _ _, h => Ty.mem_freeParams_substitute type h
  | .method sig _, h => Signature.mem_freeParams_substitute sig h
  | .call sig, h => Signature.mem_freeParams_substitute sig h
  | .construct sig, h => Signature.mem_freeParams_substitute sig h
  | .index sig, h => Signature.mem_freeParams_substitute sig h

lemma Member.mem_freeParams_substitute {b : Bindings} : ∀ m : Member,
    name ∈ (m.substitute b).freeParams → b.Leaves m.freeParams name
  | ⟨_, kind, _, _⟩, h => MemberKind.mem_freeParams_substitute kind h

lemma Member.mem_freeParamsAll_substitute {b : Bindings} : ∀ ms : List Member,
    name ∈ Member.freeParamsAll (Member.substituteAll b ms) →
      b.Leaves (Member.freeParamsAll ms) name
  | m :: ms, h => by
      rcases List.mem_append.mp h with h | h
      · exact (Member.mem_freeParams_substitute m h).imp (List.subset_append_left _ _)
      · exact (Member.mem_freeParamsAll_substitute ms h).imp (List.subset_append_right _ _)

end

end

/-- **Aliases mention no type parameters but their own.** -/
def SymbolTable.AliasesClosed (table : SymbolTable) : Prop :=
  ∀ id symbol body, table.get? id = some symbol → symbol.aliased = some body →
    body.freeParams ⊆ symbol.typeParams

end Interop
