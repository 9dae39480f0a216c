import Interop.Proofs.Inlining
import Mathlib.Data.Finset.Card

/-!
# Unfolding comes to an end

To render a type is to render its parts, and to render a reference to an alias is to render what the
alias stands for, with the arguments put in.  Where definitions do not go round in a circle this
comes to an end for every type, although what a reference stands for may be larger than the
reference, and although arguments may lead back to the alias that they are given to.

The argument is that of normalization proofs: a type unfolds to an end if the types put in for its
parameters do, by induction on the aliases that it leads to.

* `SymbolTable.Unfolds` — the types that are rendered on the way, one step at a time.
* `SymbolTable.uses_wellFounded` — definitions lead to fewer and fewer aliases.
* **`SymbolTable.unfolds_wellFounded`** — unfolding comes to an end.
-/

namespace Interop

open Relation

variable {table : SymbolTable}

/-- **What is rendered on the way to rendering a type**: a part of it, or what it stands for. -/
inductive SymbolTable.Unfolds (table : SymbolTable) : Ty → Ty → Prop
  | part {inner ty : Ty} (h : inner.Part ty) : table.Unfolds inner ty
  | expand {body ty : Ty} {id : Nat} (h : table.Expands ty id body) : table.Unfolds body ty

/-! ## Aliases -/

section

variable (hacyclic : ∀ id, ¬ TransGen table.Uses id id)
include hacyclic

open Classical in
/-- **Definitions lead to fewer and fewer aliases.**  What a definition mentions leads nowhere but
where the alias leads, and not back to the alias. -/
lemma SymbolTable.uses_wellFounded : WellFounded fun other id => table.Uses id other := by
  let reached (id : Nat) : Finset Nat :=
    (Finset.range table.size).filter (ReflTransGen table.Uses id)
  have hfewer : ∀ {other id : Nat}, table.Uses id other →
      (reached other).card < (reached id).card := by
    intro other id huses
    refine Finset.card_lt_card ⟨fun last hlast => ?_, fun hback => ?_⟩
    · obtain ⟨hlt, hreach⟩ := Finset.mem_filter.mp hlast
      exact Finset.mem_filter.mpr ⟨hlt, .head huses hreach⟩
    · have hlt : id < table.size := by
        obtain ⟨symbol, -, hget, -⟩ := huses
        exact (Array.getElem?_eq_some_iff.mp hget).1
      have hmem : id ∈ reached other :=
        hback (Finset.mem_filter.mpr ⟨Finset.mem_range.mpr hlt, .refl⟩)
      exact hacyclic id (.head' huses (Finset.mem_filter.mp hmem).2)
  exact Subrelation.wf hfewer (measure fun id => (reached id).card).wf

end

/-! ## Types -/

/-- Parts are smaller. -/
lemma Ty.Part.sizeOf_lt {part ty : Ty} (h : part.Part ty) : sizeOf part < sizeOf ty := by
  cases h with
  | argument harg | component harg | alternative harg | conjunct harg =>
      have := List.sizeOf_lt_of_mem harg
      simp
      omega
  | element => simp
  | result sig =>
      obtain ⟨typeParams, params, result⟩ := sig
      simp
      omega
  | @param sig p hp =>
      have := Inlines.sizeOf_type_lt hp
      obtain ⟨typeParams, params, result⟩ := sig
      simp at this ⊢
      omega
  | call =>
      simp
      omega

lemma Ty.part_wellFounded : WellFounded Ty.Part :=
  Subrelation.wf Ty.Part.sizeOf_lt (measure sizeOf).wf

/-- An alias such that references to it unfold to an end if their arguments do. -/
def SymbolTable.Ends (table : SymbolTable) (id : Nat) : Prop :=
  ∀ ty args, ty.reference? = some (id, args) → (∀ arg ∈ args, Acc table.Unfolds arg) →
    Acc table.Unfolds ty

/-- The arguments of a reference are parts of it. -/
lemma Ty.part_of_reference? {ty arg : Ty} {id : Nat} {args : List Ty}
    (h : ty.reference? = some (id, args)) (harg : arg ∈ args) : arg.Part ty := by
  rcases Ty.reference?_eq_some.mp h with ⟨-, rfl⟩ | rfl
  · cases harg
  · exact .argument harg

lemma Ty.mem_symbols_of_reference? {ty : Ty} {id : Nat} {args : List Ty}
    (h : ty.reference? = some (id, args)) : id ∈ ty.symbols := by
  rcases Ty.reference?_eq_some.mp h with ⟨rfl, -⟩ | rfl <;> exact List.mem_cons_self

/-- **A type unfolds to an end** if references to all that it mentions do. -/
lemma SymbolTable.acc_unfolds : ∀ ty : Ty, (∀ id ∈ ty.symbols, table.Ends id) →
    Acc table.Unfolds ty := by
  intro ty
  induction ty using Ty.part_wellFounded.induction with
  | _ ty ih =>
      intro hends
      have hparts : ∀ part : Ty, part.Part ty → Acc table.Unfolds part :=
        fun part hpart => ih part hpart fun id hid => hends id (hpart.symbols hid)
      refine .intro ty fun inner hinner => ?_
      cases hinner with
      | part hpart => exact hparts inner hpart
      | expand hexpands =>
          have hself : Acc table.Unfolds ty := by
            obtain ⟨args, -, -, href, -⟩ := hexpands
            exact hends _ (Ty.mem_symbols_of_reference? href) ty args href
              fun arg harg => hparts arg (Ty.part_of_reference? href harg)
          exact hself.inv (.expand hexpands)

/-- A reference in which parameters were replaced was a reference, or is what replaced a
parameter. -/
lemma Ty.reference?_substitute {b : Bindings} {ty : Ty} {id : Nat} {args : List Ty}
    (h : (ty.substitute b).reference? = some (id, args)) :
    (∃ given, ty.reference? = some (id, given) ∧ args = given.map (Ty.substitute b)) ∨
      ∃ entry ∈ b, ty.substitute b = entry.2 := by
  cases ty with
  | nominal other given =>
      obtain ⟨rfl, rfl⟩ := Prod.mk.inj (Option.some.inj h)
      exact Or.inl ⟨given, rfl, Ty.substituteAll_eq b given⟩
  | «alias» other =>
      obtain ⟨rfl, rfl⟩ := Prod.mk.inj (Option.some.inj h)
      exact Or.inl ⟨[], rfl, rfl⟩
  | param name =>
      cases hlookup : b.lookup name with
      | none => simp [Ty.substitute, hlookup, Ty.reference?] at h
      | some bound =>
          refine Or.inr ⟨_, Bindings.mem_of_lookup hlookup, ?_⟩
          simp only [Ty.substitute, hlookup, Option.getD_some]
  | _ => cases h

/-- **A type in which parameters were replaced unfolds to an end** if references to all that it
mentions do, and what was put in does. -/
lemma SymbolTable.acc_unfolds_substitute : ∀ (ty : Ty) (b : Bindings),
    (∀ id ∈ ty.symbols, table.Ends id) → (∀ entry ∈ b, Acc table.Unfolds entry.2) →
      Acc table.Unfolds (ty.substitute b) := by
  intro ty
  induction ty using Ty.part_wellFounded.induction with
  | _ ty ih =>
      intro b hends hb
      have hparts : ∀ part : Ty, part.Part ty → ∀ b' : Bindings, b' ⊆ b →
          Acc table.Unfolds (part.substitute b') := fun part hpart b' hsub =>
        ih part hpart b' (fun id hid => hends id (hpart.symbols hid))
          fun entry hentry => hb entry (hsub hentry)
      refine .intro _ fun inner hinner => ?_
      cases hinner with
      | part hpart =>
          rcases Ty.part_substitute hpart with ⟨other, b', hother, hsub, rfl⟩ | ⟨entry, hentry, heq⟩
          · exact hparts other hother b' hsub
          · exact (hb entry hentry).inv (heq ▸ .part hpart)
      | expand hexpands =>
          have hself : Acc table.Unfolds (ty.substitute b) := by
            obtain ⟨args, -, -, href, -⟩ := hexpands
            rcases Ty.reference?_substitute href with ⟨given, hgiven, rfl⟩ | ⟨entry, hentry, heq⟩
            · refine hends _ (Ty.mem_symbols_of_reference? hgiven) _ _ href fun arg harg => ?_
              obtain ⟨other, hother, rfl⟩ := List.mem_map.mp harg
              exact hparts other (Ty.part_of_reference? hgiven hother) b (List.Subset.refl _)
            · exact heq ▸ hb entry hentry
          exact hself.inv (.expand hexpands)

section

variable (hacyclic : ∀ id, ¬ TransGen table.Uses id id)
include hacyclic

/-- References to an alias unfold to an end if their arguments do. -/
lemma SymbolTable.ends (id : Nat) : table.Ends id := by
  induction id using (SymbolTable.uses_wellFounded hacyclic).induction with
  | _ id ih =>
      intro ty args href hargs
      refine .intro ty fun inner hinner => ?_
      cases hinner with
      | part hpart =>
          rcases Ty.reference?_eq_some.mp href with ⟨rfl, -⟩ | rfl
          · cases hpart
          · cases hpart with
            | argument harg => exact hargs inner harg
      | expand hexpands =>
          obtain ⟨args', symbol, definition, href', hget, hkind, hdefinition, rfl⟩ := hexpands
          obtain ⟨rfl, rfl⟩ := Prod.mk.inj (Option.some.inj (href'.symm.trans href))
          have hends : ∀ other ∈ definition.symbols, table.Ends other := fun other hother =>
            ih other ⟨symbol, definition, hget, hkind, hdefinition, hother⟩
          split_ifs
          · exact acc_unfolds definition hends
          · refine acc_unfolds_substitute definition _ hends fun entry hentry => ?_
            rcases snd_of_mem_aliasBindings hentry with harg | hany
            · exact hargs _ harg
            · rw [hany]
              exact acc_unfolds .any fun other hother => by cases hother

/-- **Unfolding comes to an end** where definitions do not go round in a circle. -/
theorem SymbolTable.unfolds_wellFounded : WellFounded table.Unfolds :=
  ⟨fun ty => acc_unfolds ty fun id _ => ends hacyclic id⟩

end

end Interop
