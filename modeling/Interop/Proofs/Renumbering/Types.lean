import Interop.Symbol.Table
import Interop.Type.Substitution
import Interop.Type.Text
import Mathlib.Tactic.Common

/-!
# Symbols in types

A type refers to declarations by the numbers of their symbols.  This file says which symbols occur
in a type, at any depth, and what becomes of a type when symbols get other numbers.  Both go along
with replacing type parameters and with writing a type in source syntax.

* `Ty.symbols`, `Signature.symbols`, `Member.symbols`, … — the symbols that occur.
* `Ty.mapSymbols`, … — other numbers in their place.
* `Ty.mapSymbols_substitute`, `Ty.mem_symbols_substitute` — replacing type parameters.
* `Ty.textAs_mapSymbols` — the text depends on the names of the symbols alone.
-/

namespace Interop

/-! ## The symbols that occur -/

mutual

/-- The symbols that occur in a type. -/
def Ty.symbols : Ty → List Nat
  | .nominal symbol args => symbol :: Ty.symbolsAll args
  | .function signature => signature.symbols
  | .array element => element.symbols
  | .tuple elements => Ty.symbolsAll elements
  | .shape members => Member.symbolsAll members
  | .alias symbol => [symbol]
  | .union members => Ty.symbolsAll members
  | .intersection members => Ty.symbolsAll members
  | .primitive _ | .param _ | .literal _ _ | .raw _ => []

/-- The symbols that occur in types. -/
def Ty.symbolsAll : List Ty → List Nat
  | [] => []
  | ty :: tys => ty.symbols ++ Ty.symbolsAll tys

/-- The symbols that occur in a signature. -/
def Signature.symbols : Signature → List Nat
  | ⟨_, params, result⟩ => Param.symbolsAll params ++ result.symbols

/-- The symbols that occur in the type of a parameter. -/
def Param.symbols : Param → List Nat
  | ⟨_, type, _, _⟩ => type.symbols

/-- The symbols that occur in the types of parameters. -/
def Param.symbolsAll : List Param → List Nat
  | [] => []
  | p :: ps => p.symbols ++ Param.symbolsAll ps

/-- The symbols that occur in what a member is. -/
def MemberKind.symbols : MemberKind → List Nat
  | .property type _ _ => type.symbols
  | .method signature _ => signature.symbols
  | .call signature => signature.symbols
  | .construct signature => signature.symbols
  | .index signature => signature.symbols
  | .nested symbol => [symbol]

/-- The symbols that occur in a member. -/
def Member.symbols : Member → List Nat
  | ⟨_, kind, _, _⟩ => kind.symbols

/-- The symbols that occur in members. -/
def Member.symbolsAll : List Member → List Nat
  | [] => []
  | m :: ms => m.symbols ++ Member.symbolsAll ms

end

lemma Ty.symbolsAll_eq (tys : List Ty) : Ty.symbolsAll tys = tys.flatMap Ty.symbols := by
  induction tys with
  | nil => rfl
  | cons ty tys ih => exact congrArg (ty.symbols ++ ·) ih

lemma Param.symbolsAll_eq (ps : List Param) : Param.symbolsAll ps = ps.flatMap Param.symbols := by
  induction ps with
  | nil => rfl
  | cons p ps ih => exact congrArg (p.symbols ++ ·) ih

lemma Member.symbolsAll_eq (ms : List Member) : Member.symbolsAll ms = ms.flatMap Member.symbols := by
  induction ms with
  | nil => rfl
  | cons m ms ih => exact congrArg (m.symbols ++ ·) ih

lemma Ty.mem_symbolsAll {id : Nat} {tys : List Ty} :
    id ∈ Ty.symbolsAll tys ↔ ∃ ty ∈ tys, id ∈ ty.symbols := by
  rw [Ty.symbolsAll_eq, List.mem_flatMap]

/-- The symbols that occur in what a symbol declares. -/
def Symbol.symbols (s : Symbol) : List Nat :=
  (s.aliased.toList.flatMap Ty.symbols) ++ s.members.flatMap Member.symbols ++
    s.bases.flatMap Ty.symbols

/-! ## Other numbers -/

mutual

/-- A type with other numbers for its symbols. -/
def Ty.mapSymbols (f : Nat → Nat) : Ty → Ty
  | .primitive kind => .primitive kind
  | .nominal symbol args => .nominal (f symbol) (Ty.mapSymbolsAll f args)
  | .function signature => .function (signature.mapSymbols f)
  | .array element => .array (element.mapSymbols f)
  | .tuple elements => .tuple (Ty.mapSymbolsAll f elements)
  | .shape members => .shape (Member.mapSymbolsAll f members)
  | .alias symbol => .alias (f symbol)
  | .param name => .param name
  | .literal kind text => .literal kind text
  | .union members => .union (Ty.mapSymbolsAll f members)
  | .intersection members => .intersection (Ty.mapSymbolsAll f members)
  | .raw text => .raw text

/-- Types with other numbers for their symbols. -/
def Ty.mapSymbolsAll (f : Nat → Nat) : List Ty → List Ty
  | [] => []
  | ty :: tys => ty.mapSymbols f :: Ty.mapSymbolsAll f tys

/-- A signature with other numbers for its symbols. -/
def Signature.mapSymbols (f : Nat → Nat) : Signature → Signature
  | ⟨typeParams, params, result⟩ =>
    ⟨typeParams, Param.mapSymbolsAll f params, result.mapSymbols f⟩

/-- A parameter with other numbers for the symbols in its type. -/
def Param.mapSymbols (f : Nat → Nat) : Param → Param
  | ⟨name, type, optional, rest⟩ => ⟨name, type.mapSymbols f, optional, rest⟩

/-- Parameters with other numbers for the symbols in their types. -/
def Param.mapSymbolsAll (f : Nat → Nat) : List Param → List Param
  | [] => []
  | p :: ps => p.mapSymbols f :: Param.mapSymbolsAll f ps

/-- What a member is, with other numbers for its symbols. -/
def MemberKind.mapSymbols (f : Nat → Nat) : MemberKind → MemberKind
  | .property type optional readonly => .property (type.mapSymbols f) optional readonly
  | .method signature optional => .method (signature.mapSymbols f) optional
  | .call signature => .call (signature.mapSymbols f)
  | .construct signature => .construct (signature.mapSymbols f)
  | .index signature => .index (signature.mapSymbols f)
  | .nested symbol => .nested (f symbol)

/-- A member with other numbers for its symbols. -/
def Member.mapSymbols (f : Nat → Nat) : Member → Member
  | ⟨name, kind, isStatic, span⟩ => ⟨name, kind.mapSymbols f, isStatic, span⟩

/-- Members with other numbers for their symbols. -/
def Member.mapSymbolsAll (f : Nat → Nat) : List Member → List Member
  | [] => []
  | m :: ms => m.mapSymbols f :: Member.mapSymbolsAll f ms

end

section

variable (f : Nat → Nat)

@[simp] lemma Ty.mapSymbolsAll_eq (tys : List Ty) :
    Ty.mapSymbolsAll f tys = tys.map (Ty.mapSymbols f) := by
  induction tys with
  | nil => rfl
  | cons ty tys ih => exact congrArg (ty.mapSymbols f :: ·) ih

@[simp] lemma Param.mapSymbolsAll_eq (ps : List Param) :
    Param.mapSymbolsAll f ps = ps.map (Param.mapSymbols f) := by
  induction ps with
  | nil => rfl
  | cons p ps ih => exact congrArg (p.mapSymbols f :: ·) ih

@[simp] lemma Member.mapSymbolsAll_eq (ms : List Member) :
    Member.mapSymbolsAll f ms = ms.map (Member.mapSymbols f) := by
  induction ms with
  | nil => rfl
  | cons m ms ih => exact congrArg (m.mapSymbols f :: ·) ih

end

/-! ### The same numbers -/

mutual

lemma Ty.mapSymbols_id : ∀ ty : Ty, ty.mapSymbols id = ty
  | .nominal symbol args => congrArg (Ty.nominal symbol) (Ty.mapSymbolsAll_id args)
  | .function signature => congrArg Ty.function (Signature.mapSymbols_id signature)
  | .array element => congrArg Ty.array (Ty.mapSymbols_id element)
  | .tuple elements => congrArg Ty.tuple (Ty.mapSymbolsAll_id elements)
  | .shape members => congrArg Ty.shape (Member.mapSymbolsAll_id members)
  | .union members => congrArg Ty.union (Ty.mapSymbolsAll_id members)
  | .intersection members => congrArg Ty.intersection (Ty.mapSymbolsAll_id members)
  | .primitive _ | .alias _ | .param _ | .literal _ _ | .raw _ => rfl

lemma Ty.mapSymbolsAll_id : ∀ tys : List Ty, Ty.mapSymbolsAll id tys = tys
  | [] => rfl
  | ty :: tys => congrArg₂ List.cons (Ty.mapSymbols_id ty) (Ty.mapSymbolsAll_id tys)

lemma Signature.mapSymbols_id : ∀ sig : Signature, sig.mapSymbols id = sig
  | ⟨typeParams, params, result⟩ => congrArg₂ (Signature.mk typeParams)
      (Param.mapSymbolsAll_id params) (Ty.mapSymbols_id result)

lemma Param.mapSymbols_id : ∀ p : Param, p.mapSymbols id = p
  | ⟨name, type, optional, rest⟩ =>
      congrArg (Param.mk name · optional rest) (Ty.mapSymbols_id type)

lemma Param.mapSymbolsAll_id : ∀ ps : List Param, Param.mapSymbolsAll id ps = ps
  | [] => rfl
  | p :: ps => congrArg₂ List.cons (Param.mapSymbols_id p) (Param.mapSymbolsAll_id ps)

lemma MemberKind.mapSymbols_id : ∀ kind : MemberKind, kind.mapSymbols id = kind
  | .property type optional readonly =>
      congrArg (MemberKind.property · optional readonly) (Ty.mapSymbols_id type)
  | .method signature optional =>
      congrArg (MemberKind.method · optional) (Signature.mapSymbols_id signature)
  | .call signature => congrArg MemberKind.call (Signature.mapSymbols_id signature)
  | .construct signature => congrArg MemberKind.construct (Signature.mapSymbols_id signature)
  | .index signature => congrArg MemberKind.index (Signature.mapSymbols_id signature)
  | .nested _ => rfl

lemma Member.mapSymbols_id : ∀ m : Member, m.mapSymbols id = m
  | ⟨name, kind, isStatic, span⟩ =>
      congrArg (Member.mk name · isStatic span) (MemberKind.mapSymbols_id kind)

lemma Member.mapSymbolsAll_id : ∀ ms : List Member, Member.mapSymbolsAll id ms = ms
  | [] => rfl
  | m :: ms => congrArg₂ List.cons (Member.mapSymbols_id m) (Member.mapSymbolsAll_id ms)

end

/-! ### Replacing type parameters -/

/-- Bindings with other numbers for the symbols in their types. -/
def Bindings.mapSymbols (f : Nat → Nat) (bindings : Bindings) : Bindings :=
  bindings.map fun b => (b.1, b.2.mapSymbols f)

lemma Bindings.mapSymbols_hiding (f : Nat → Nat) (bindings : Bindings) (names : List String) :
    (bindings.hiding names).mapSymbols f = (bindings.mapSymbols f).hiding names := by
  simp only [Bindings.hiding, Bindings.mapSymbols, List.filter_map, Function.comp_def]

lemma Bindings.lookup_mapSymbols (f : Nat → Nat) (name : String) : ∀ bindings : Bindings,
    (bindings.mapSymbols f).lookup name = (bindings.lookup name).map (Ty.mapSymbols f)
  | [] => rfl
  | (other, ty) :: rest => by
      have ih := lookup_mapSymbols f name rest
      simp only [mapSymbols] at ih
      simp only [mapSymbols, List.map_cons, List.lookup_cons, ih]
      cases name == other <;> rfl

mutual

/-- Replacing type parameters goes along with other numbers. -/
lemma Ty.mapSymbols_substitute (f : Nat → Nat) (b : Bindings) : ∀ ty : Ty,
    (ty.substitute b).mapSymbols f = (ty.mapSymbols f).substitute (b.mapSymbols f)
  | .nominal symbol args => congrArg (Ty.nominal (f symbol)) (Ty.mapSymbols_substituteAll f b args)
  | .function signature => congrArg Ty.function (Signature.mapSymbols_substitute f b signature)
  | .array element => congrArg Ty.array (Ty.mapSymbols_substitute f b element)
  | .tuple elements => congrArg Ty.tuple (Ty.mapSymbols_substituteAll f b elements)
  | .shape members => congrArg Ty.shape (Member.mapSymbols_substituteAll f b members)
  | .union members => congrArg Ty.union (Ty.mapSymbols_substituteAll f b members)
  | .intersection members => congrArg Ty.intersection (Ty.mapSymbols_substituteAll f b members)
  | .param name => by
      simp only [Ty.substitute, Ty.mapSymbols, Bindings.lookup_mapSymbols]
      cases List.lookup name b <;> rfl
  | .primitive _ | .alias _ | .literal _ _ | .raw _ => rfl

lemma Ty.mapSymbols_substituteAll (f : Nat → Nat) (b : Bindings) : ∀ tys : List Ty,
    Ty.mapSymbolsAll f (Ty.substituteAll b tys) =
      Ty.substituteAll (b.mapSymbols f) (Ty.mapSymbolsAll f tys)
  | [] => rfl
  | ty :: tys => congrArg₂ List.cons (Ty.mapSymbols_substitute f b ty)
      (Ty.mapSymbols_substituteAll f b tys)

lemma Signature.mapSymbols_substitute (f : Nat → Nat) (b : Bindings) : ∀ sig : Signature,
    (sig.substitute b).mapSymbols f = (sig.mapSymbols f).substitute (b.mapSymbols f)
  | ⟨typeParams, params, result⟩ => by
      have hparams := Param.mapSymbols_substituteAll f (b.hiding typeParams) params
      have hresult := Ty.mapSymbols_substitute f (b.hiding typeParams) result
      rw [Bindings.mapSymbols_hiding] at hparams hresult
      exact congrArg₂ (Signature.mk typeParams) hparams hresult

lemma Param.mapSymbols_substitute (f : Nat → Nat) (b : Bindings) : ∀ p : Param,
    (p.substitute b).mapSymbols f = (p.mapSymbols f).substitute (b.mapSymbols f)
  | ⟨name, type, optional, rest⟩ =>
      congrArg (Param.mk name · optional rest) (Ty.mapSymbols_substitute f b type)

lemma Param.mapSymbols_substituteAll (f : Nat → Nat) (b : Bindings) : ∀ ps : List Param,
    Param.mapSymbolsAll f (Param.substituteAll b ps) =
      Param.substituteAll (b.mapSymbols f) (Param.mapSymbolsAll f ps)
  | [] => rfl
  | p :: ps => congrArg₂ List.cons (Param.mapSymbols_substitute f b p)
      (Param.mapSymbols_substituteAll f b ps)

lemma MemberKind.mapSymbols_substitute (f : Nat → Nat) (b : Bindings) : ∀ kind : MemberKind,
    (kind.substitute b).mapSymbols f = (kind.mapSymbols f).substitute (b.mapSymbols f)
  | .property type optional readonly =>
      congrArg (MemberKind.property · optional readonly) (Ty.mapSymbols_substitute f b type)
  | .method signature optional =>
      congrArg (MemberKind.method · optional) (Signature.mapSymbols_substitute f b signature)
  | .call signature => congrArg MemberKind.call (Signature.mapSymbols_substitute f b signature)
  | .construct signature =>
      congrArg MemberKind.construct (Signature.mapSymbols_substitute f b signature)
  | .index signature => congrArg MemberKind.index (Signature.mapSymbols_substitute f b signature)
  | .nested _ => rfl

lemma Member.mapSymbols_substitute (f : Nat → Nat) (b : Bindings) : ∀ m : Member,
    (m.substitute b).mapSymbols f = (m.mapSymbols f).substitute (b.mapSymbols f)
  | ⟨name, kind, isStatic, span⟩ =>
      congrArg (Member.mk name · isStatic span) (MemberKind.mapSymbols_substitute f b kind)

lemma Member.mapSymbols_substituteAll (f : Nat → Nat) (b : Bindings) : ∀ ms : List Member,
    Member.mapSymbolsAll f (Member.substituteAll b ms) =
      Member.substituteAll (b.mapSymbols f) (Member.mapSymbolsAll f ms)
  | [] => rfl
  | m :: ms => congrArg₂ List.cons (Member.mapSymbols_substitute f b m)
      (Member.mapSymbols_substituteAll f b ms)

end

lemma Bindings.mem_of_mem_hiding {bindings : Bindings} {names : List String} {entry : String × Ty}
    (h : entry ∈ bindings.hiding names) : entry ∈ bindings :=
  (List.mem_filter.mp h).1

lemma Bindings.mem_of_lookup {name : String} {ty : Ty} : ∀ {bindings : Bindings},
    bindings.lookup name = some ty → (name, ty) ∈ bindings
  | [], h => by cases h
  | (other, body) :: rest, h => by
      rw [List.lookup_cons] at h
      split at h
      · rename_i heq
        obtain rfl := Option.some.inj h
        obtain rfl : name = other := by simpa using heq
        exact List.mem_cons_self
      · exact List.mem_cons_of_mem _ (mem_of_lookup h)

section

variable {id : Nat}

/-- A symbol occurs in one of the types that are put in the place of type parameters. -/
def Bindings.Mentions (b : Bindings) (id : Nat) : Prop :=
  ∃ entry ∈ b, id ∈ entry.2.symbols

lemma Bindings.Mentions.of_hiding {b : Bindings} {names : List String}
    (h : (b.hiding names).Mentions id) : b.Mentions id := by
  obtain ⟨entry, hentry, hid⟩ := h
  exact ⟨entry, mem_of_mem_hiding hentry, hid⟩

mutual

/-- Replacing type parameters brings in no symbols but those of the types that are put in. -/
lemma Ty.mem_symbols_substitute {b : Bindings} : ∀ ty : Ty,
    id ∈ (ty.substitute b).symbols → id ∈ ty.symbols ∨ b.Mentions id
  | .nominal symbol args, h => by
      rcases List.mem_cons.mp h with rfl | h
      · exact Or.inl List.mem_cons_self
      · exact (Ty.mem_symbolsAll_substitute args h).imp_left (List.mem_cons_of_mem _)
  | .function sig, h => Signature.mem_symbols_substitute sig h
  | .array element, h => Ty.mem_symbols_substitute element h
  | .tuple elements, h => Ty.mem_symbolsAll_substitute elements h
  | .shape members, h => Member.mem_symbolsAll_substitute members h
  | .alias _, h => Or.inl h
  | .union members, h => Ty.mem_symbolsAll_substitute members h
  | .intersection members, h => Ty.mem_symbolsAll_substitute members h
  | .param name, h => by
      simp only [Ty.substitute] at h
      cases hlookup : b.lookup name with
      | none => simp [hlookup, Ty.symbols] at h
      | some ty => exact Or.inr ⟨_, Bindings.mem_of_lookup hlookup, by simpa [hlookup] using h⟩

lemma Ty.mem_symbolsAll_substitute {b : Bindings} : ∀ tys : List Ty,
    id ∈ Ty.symbolsAll (Ty.substituteAll b tys) → id ∈ Ty.symbolsAll tys ∨ b.Mentions id
  | ty :: tys, h => by
      rcases List.mem_append.mp h with h | h
      · exact (Ty.mem_symbols_substitute ty h).imp_left (List.mem_append_left _)
      · exact (Ty.mem_symbolsAll_substitute tys h).imp_left (List.mem_append_right _)

lemma Signature.mem_symbols_substitute {b : Bindings} : ∀ sig : Signature,
    id ∈ (sig.substitute b).symbols → id ∈ sig.symbols ∨ b.Mentions id
  | ⟨_, params, result⟩, h => by
      rcases List.mem_append.mp h with h | h
      · exact (Param.mem_symbolsAll_substitute params h).imp (List.mem_append_left _) .of_hiding
      · exact (Ty.mem_symbols_substitute result h).imp (List.mem_append_right _) .of_hiding

lemma Param.mem_symbols_substitute {b : Bindings} : ∀ p : Param,
    id ∈ (p.substitute b).symbols → id ∈ p.symbols ∨ b.Mentions id
  | ⟨_, type, _, _⟩, h => Ty.mem_symbols_substitute type h

lemma Param.mem_symbolsAll_substitute {b : Bindings} : ∀ ps : List Param,
    id ∈ Param.symbolsAll (Param.substituteAll b ps) → id ∈ Param.symbolsAll ps ∨ b.Mentions id
  | p :: ps, h => by
      rcases List.mem_append.mp h with h | h
      · exact (Param.mem_symbols_substitute p h).imp_left (List.mem_append_left _)
      · exact (Param.mem_symbolsAll_substitute ps h).imp_left (List.mem_append_right _)

lemma MemberKind.mem_symbols_substitute {b : Bindings} : ∀ kind : MemberKind,
    id ∈ (kind.substitute b).symbols → id ∈ kind.symbols ∨ b.Mentions id
  | .property type _ _, h => Ty.mem_symbols_substitute type h
  | .method sig _, h => Signature.mem_symbols_substitute sig h
  | .call sig, h => Signature.mem_symbols_substitute sig h
  | .construct sig, h => Signature.mem_symbols_substitute sig h
  | .index sig, h => Signature.mem_symbols_substitute sig h
  | .nested _, h => Or.inl h

lemma Member.mem_symbols_substitute {b : Bindings} : ∀ m : Member,
    id ∈ (m.substitute b).symbols → id ∈ m.symbols ∨ b.Mentions id
  | ⟨_, kind, _, _⟩, h => MemberKind.mem_symbols_substitute kind h

lemma Member.mem_symbolsAll_substitute {b : Bindings} : ∀ ms : List Member,
    id ∈ Member.symbolsAll (Member.substituteAll b ms) → id ∈ Member.symbolsAll ms ∨ b.Mentions id
  | m :: ms, h => by
      rcases List.mem_append.mp h with h | h
      · exact (Member.mem_symbols_substitute m h).imp_left (List.mem_append_left _)
      · exact (Member.mem_symbolsAll_substitute ms h).imp_left (List.mem_append_right _)

end

end

/-! ### Texts -/

/-- A symbol of one table and one of another that are written alike. -/
def SymbolTable.SameText (t t' : SymbolTable) (f : Nat → Nat) (ids : List Nat) : Prop :=
  ∀ id ∈ ids, t'.displayName (f id) = t.displayName id ∧ t'.qualifiedName (f id) = t.qualifiedName id

namespace SymbolTable.SameText

variable {t t' : SymbolTable} {f : Nat → Nat} {first second : List Nat}

lemma left (h : t.SameText t' f (first ++ second)) : t.SameText t' f first :=
  fun id hid => h id (List.mem_append_left _ hid)

lemma right (h : t.SameText t' f (first ++ second)) : t.SameText t' f second :=
  fun id hid => h id (List.mem_append_right _ hid)

end SymbolTable.SameText

section

variable {t t' : SymbolTable} {f : Nat → Nat}

mutual

/-- **The text of a type** depends on the names of its symbols, and not on their numbers. -/
lemma Ty.textAs_mapSymbols (operand : Bool) : ∀ ty : Ty, t.SameText t' f ty.symbols →
    (ty.mapSymbols f).textAs t' operand = ty.textAs t operand
  | .nominal symbol args, h => by
      have hargs := Ty.texts_mapSymbols false args fun id hid =>
        h id (List.mem_cons_of_mem _ hid)
      simp only [Ty.mapSymbols, Ty.textAs, (h symbol List.mem_cons_self).1, hargs]
  | .function sig, h => by
      simp only [Ty.mapSymbols, Ty.textAs, Signature.textWith_mapSymbols " => " sig h]
  | .array element, h => by
      simp only [Ty.mapSymbols, Ty.textAs, Ty.textAs_mapSymbols true element h]
  | .tuple elements, h => by
      simp only [Ty.mapSymbols, Ty.textAs, Ty.texts_mapSymbols false elements h]
  | .shape [], _ => rfl
  | .shape (m :: ms), h => by
      simp only [Ty.mapSymbols, Member.mapSymbolsAll, Ty.textAs, Member.text_mapSymbols m h.left,
        Member.texts_mapSymbols ms h.right]
  | .alias symbol, h => (h symbol List.mem_cons_self).1
  | .union members, h => by
      simp only [Ty.mapSymbols, Ty.textAs, Ty.texts_mapSymbols true members h]
  | .intersection members, h => by
      simp only [Ty.mapSymbols, Ty.textAs, Ty.texts_mapSymbols true members h]
  | .primitive _, _ => rfl
  | .param _, _ => rfl
  | .literal _ _, _ => rfl
  | .raw _, _ => rfl

lemma Ty.texts_mapSymbols (operand : Bool) : ∀ tys : List Ty,
    t.SameText t' f (Ty.symbolsAll tys) →
      Ty.texts t' operand (Ty.mapSymbolsAll f tys) = Ty.texts t operand tys
  | [], _ => rfl
  | ty :: tys, h => congrArg₂ List.cons (Ty.textAs_mapSymbols operand ty h.left)
      (Ty.texts_mapSymbols operand tys h.right)

lemma Signature.textWith_mapSymbols (arrow : String) : ∀ sig : Signature,
    t.SameText t' f sig.symbols → (sig.mapSymbols f).textWith t' arrow = sig.textWith t arrow
  | ⟨_, params, result⟩, h => by
      simp only [Signature.mapSymbols, Signature.textWith, Param.texts_mapSymbols params h.left,
        Ty.textAs_mapSymbols false result h.right]

lemma Param.text_mapSymbols : ∀ p : Param, t.SameText t' f p.symbols →
    (p.mapSymbols f).text t' = p.text t
  | ⟨_, type, _, _⟩, h => by
      simp only [Param.mapSymbols, Param.text, Ty.textAs_mapSymbols false type h]

lemma Param.texts_mapSymbols : ∀ ps : List Param, t.SameText t' f (Param.symbolsAll ps) →
    Param.texts t' (Param.mapSymbolsAll f ps) = Param.texts t ps
  | [], _ => rfl
  | p :: ps, h => congrArg₂ List.cons (Param.text_mapSymbols p h.left)
      (Param.texts_mapSymbols ps h.right)

lemma MemberKind.text_mapSymbols (name : String) : ∀ kind : MemberKind,
    t.SameText t' f kind.symbols → (kind.mapSymbols f).text t' name = kind.text t name
  | .property type _ _, h => by
      simp only [MemberKind.mapSymbols, MemberKind.text,
        Ty.textAs_mapSymbols false type h]
  | .method sig _, h => by
      simp only [MemberKind.mapSymbols, MemberKind.text,
        Signature.textWith_mapSymbols ": " sig h]
  | .call sig, h => Signature.textWith_mapSymbols ": " sig h
  | .construct sig, h => congrArg ("new " ++ ·) (Signature.textWith_mapSymbols ": " sig h)
  | .index ⟨_, params, result⟩, h => by
      simp only [MemberKind.mapSymbols, Signature.mapSymbols, MemberKind.text,
        Param.texts_mapSymbols params h.left, Ty.textAs_mapSymbols false result h.right]
  | .nested symbol, h => (h symbol List.mem_cons_self).2

lemma Member.text_mapSymbols : ∀ m : Member, t.SameText t' f m.symbols →
    (m.mapSymbols f).text t' = m.text t
  | ⟨_, kind, _, _⟩, h => by
      simp only [Member.mapSymbols, Member.text, MemberKind.text_mapSymbols _ kind h]

lemma Member.texts_mapSymbols : ∀ ms : List Member, t.SameText t' f (Member.symbolsAll ms) →
    Member.texts t' (Member.mapSymbolsAll f ms) = Member.texts t ms
  | [], _ => rfl
  | m :: ms, h => congrArg₂ List.cons (Member.text_mapSymbols m h.left)
      (Member.texts_mapSymbols ms h.right)

end

end

end Interop
