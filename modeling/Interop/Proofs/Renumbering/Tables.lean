import Interop.Emission.Declaration
import Interop.Proofs.Renumbering.Types
import Mathlib.Data.List.Forall2
import Mathlib.Logic.Function.Basic

/-!
# Tables that differ in numbers

The numbers of symbols, files and libraries follow the order of the inputs.  A renumbering gives
other numbers to all of them, and two tables correspond if one is the other with other numbers.
Then looking through aliases, taking unions apart and writing types in source syntax come to the
same in both, for types all of whose symbols are there.

* `Renumbering` — other numbers; `Symbol.renumber` — a symbol with other numbers.
* `SymbolTable.Closed` — every symbol that occurs in a type is there and names a type.
* `Renumbering.Tables` — two tables that correspond.
* `Renumbering.Types`, `Renumbering.Signatures`, … — types that correspond, and so on.
* `Renumbering.Tables.components` — corresponding types have corresponding components.
-/

namespace Interop

/-! ## Closed tables -/

namespace SymbolTable

/-- A symbol that is there and names a type. -/
def IsTypeSymbol (t : SymbolTable) (id : Nat) : Prop :=
  ∃ s, t.get? id = some s ∧
    (s.kind = .klass ∨ s.kind = .interface ∨ s.kind = .alias ∨ s.kind = .enum)

/-- All of some symbols are there and name types. -/
def Knows (t : SymbolTable) (ids : List Nat) : Prop :=
  ∀ id ∈ ids, t.IsTypeSymbol id

/-- **A closed table.**  What occurs in a type, at any depth, is there and names a type. -/
def Closed (t : SymbolTable) : Prop :=
  ∀ id s, t.get? id = some s → t.Knows s.symbols

variable {t : SymbolTable} {first second : List Nat}

lemma knows_nil (t : SymbolTable) : t.Knows [] :=
  fun _ h => by cases h

lemma knows_append : t.Knows (first ++ second) ↔ t.Knows first ∧ t.Knows second :=
  List.forall_mem_append

lemma knows_cons {id : Nat} : t.Knows (id :: first) ↔ t.IsTypeSymbol id ∧ t.Knows first :=
  List.forall_mem_cons

lemma knows_flatMap {α : Type} {xs : List α} {f : α → List Nat} :
    t.Knows (xs.flatMap f) ↔ ∀ x ∈ xs, t.Knows (f x) := by
  simp only [Knows, List.mem_flatMap]
  exact ⟨fun h x hx id hid => h id ⟨x, hx, hid⟩, fun h id ⟨x, hx, hid⟩ => h x hx id hid⟩

/-- What is known of a symbol is known of what it stands for, its members and its bases. -/
lemma knows_symbols {s : Symbol} : t.Knows s.symbols ↔
    (∀ body, s.aliased = some body → t.Knows body.symbols) ∧
      t.Knows (Member.symbolsAll s.members) ∧ t.Knows (Ty.symbolsAll s.bases) := by
  rw [Symbol.symbols, knows_append, knows_append, and_assoc, knows_flatMap, Member.symbolsAll_eq,
    Ty.symbolsAll_eq]
  simp only [Option.mem_toList]

end SymbolTable

/-! ## Renumberings -/

/-- **Other numbers** for symbols, files and libraries.  The file of the platform types keeps its
number. -/
structure Renumbering where
  symbol : Nat → Nat
  file : Nat → Nat
  library : Nat → Nat
  symbol_injective : Function.Injective symbol
  file_injective : Function.Injective file
  library_injective : Function.Injective library
  ambient : file ambientFile = ambientFile

/-- The same numbers. -/
def Renumbering.same : Renumbering :=
  ⟨id, id, id, Function.injective_id, Function.injective_id, Function.injective_id, rfl⟩

/-- A symbol with other numbers. -/
def Symbol.renumber (ρ : Renumbering) (s : Symbol) : Symbol :=
  { s with file := ρ.file s.file, parent := s.parent.map ρ.symbol,
           aliased := s.aliased.map (Ty.mapSymbols ρ.symbol),
           members := s.members.map (Member.mapSymbols ρ.symbol),
           bases := s.bases.map (Ty.mapSymbols ρ.symbol) }

lemma Symbol.renumber_same (s : Symbol) : s.renumber .same = s := by
  have hty : Ty.mapSymbols id = id := funext Ty.mapSymbols_id
  have hmember : Member.mapSymbols id = id := funext Member.mapSymbols_id
  simp [renumber, Renumbering.same, hty, hmember]

section

variable (ρ : Renumbering) (s : Symbol)

lemma Symbol.isAmbient_renumber : (s.renumber ρ).isAmbient = s.isAmbient := by
  simp only [isAmbient, renumber]
  rw [Bool.eq_iff_iff, beq_iff_eq, beq_iff_eq]
  exact ⟨fun h => ρ.file_injective (h.trans ρ.ambient.symm),
    fun h => (congrArg ρ.file h).trans ρ.ambient⟩

lemma Symbol.scopedName_renumber : (s.renumber ρ).scopedName = s.scopedName := by
  simp only [scopedName, isAmbient_renumber]
  rfl

lemma Symbol.qualifiedName_renumber : (s.renumber ρ).qualifiedName = s.qualifiedName := by
  rw [qualifiedName, qualifiedName, scopedName_renumber]

end

namespace Renumbering

variable (ρ : Renumbering)

/-- **Tables that correspond.**  One is the other with other numbers, and it is closed. -/
structure Tables (t t' : SymbolTable) : Prop where
  size : t'.size = t.size
  get? : ∀ id, t'.get? (ρ.symbol id) = (t.get? id).map (Symbol.renumber ρ)
  children : ∀ file parent, t'.children (ρ.file file) (parent.map ρ.symbol) =
    (t.children file parent).map ρ.symbol
  closed : t.Closed

/-- A closed table corresponds to itself. -/
lemma Tables.refl {t : SymbolTable} (h : t.Closed) : same.Tables t t where
  size := rfl
  get? id := by
    have hid : Symbol.renumber same = fun s => s := funext Symbol.renumber_same
    rw [hid, Option.map_id']
    rfl
  children file parent := by simp [same]
  closed := h

/-! ## Types that correspond -/

section

variable (t : SymbolTable)

/-- Types that correspond, and whose symbols are there. -/
def Types (ty ty' : Ty) : Prop :=
  ty' = ty.mapSymbols ρ.symbol ∧ t.Knows ty.symbols

/-- Signatures that correspond. -/
def Signatures (sig sig' : Signature) : Prop :=
  sig' = sig.mapSymbols ρ.symbol ∧ t.Knows sig.symbols

/-- Parameters that correspond. -/
def Params (p p' : Param) : Prop :=
  p' = p.mapSymbols ρ.symbol ∧ t.Knows p.symbols

/-- Members that correspond. -/
def Members (m m' : Member) : Prop :=
  m' = m.mapSymbols ρ.symbol ∧ t.Knows m.symbols

end

section

variable {ρ} {t : SymbolTable}

lemma forall₂_types {tys : List Ty} (h : t.Knows (Ty.symbolsAll tys)) :
    List.Forall₂ (ρ.Types t) tys (tys.map (Ty.mapSymbols ρ.symbol)) := by
  rw [Ty.symbolsAll_eq, SymbolTable.knows_flatMap] at h
  rw [List.forall₂_map_right_iff, List.forall₂_same]
  exact fun ty hty => ⟨rfl, h ty hty⟩

lemma forall₂_params {ps : List Param} (h : t.Knows (Param.symbolsAll ps)) :
    List.Forall₂ (ρ.Params t) ps (ps.map (Param.mapSymbols ρ.symbol)) := by
  rw [Param.symbolsAll_eq, SymbolTable.knows_flatMap] at h
  rw [List.forall₂_map_right_iff, List.forall₂_same]
  exact fun p hp => ⟨rfl, h p hp⟩

lemma forall₂_members {ms : List Member} (h : t.Knows (Member.symbolsAll ms)) :
    List.Forall₂ (ρ.Members t) ms (ms.map (Member.mapSymbols ρ.symbol)) := by
  rw [Member.symbolsAll_eq, SymbolTable.knows_flatMap] at h
  rw [List.forall₂_map_right_iff, List.forall₂_same]
  exact fun m hm => ⟨rfl, h m hm⟩

/-- Lists of types that correspond make unions, tuples and so on that do. -/
lemma Types.all {tys tys' : List Ty} (h : List.Forall₂ (ρ.Types t) tys tys') :
    tys' = tys.map (Ty.mapSymbols ρ.symbol) ∧ t.Knows (Ty.symbolsAll tys) := by
  induction h with
  | nil => exact ⟨rfl, t.knows_nil⟩
  | cons hty _ ih =>
      exact ⟨by rw [hty.1, ih.1, List.map_cons], SymbolTable.knows_append.mpr ⟨hty.2, ih.2⟩⟩

lemma Params.all {ps ps' : List Param} (h : List.Forall₂ (ρ.Params t) ps ps') :
    ps' = ps.map (Param.mapSymbols ρ.symbol) ∧ t.Knows (Param.symbolsAll ps) := by
  induction h with
  | nil => exact ⟨rfl, t.knows_nil⟩
  | cons hp _ ih =>
      exact ⟨by rw [hp.1, ih.1, List.map_cons], SymbolTable.knows_append.mpr ⟨hp.2, ih.2⟩⟩

lemma Members.all {ms ms' : List Member} (h : List.Forall₂ (ρ.Members t) ms ms') :
    ms' = ms.map (Member.mapSymbols ρ.symbol) ∧ t.Knows (Member.symbolsAll ms) := by
  induction h with
  | nil => exact ⟨rfl, t.knows_nil⟩
  | cons hm _ ih =>
      exact ⟨by rw [hm.1, ih.1, List.map_cons], SymbolTable.knows_append.mpr ⟨hm.2, ih.2⟩⟩

lemma Types.any : ρ.Types t .any .any :=
  ⟨rfl, t.knows_nil⟩

lemma Types.void : ρ.Types t .void .void :=
  ⟨rfl, t.knows_nil⟩

lemma Types.array {ty ty' : Ty} (h : ρ.Types t ty ty') : ρ.Types t (.array ty) (.array ty') :=
  ⟨congrArg Ty.array h.1, h.2⟩

lemma Types.union {tys tys' : List Ty} (h : List.Forall₂ (ρ.Types t) tys tys') :
    ρ.Types t (.union tys) (.union tys') := by
  obtain ⟨rfl, hknows⟩ := Types.all h
  exact ⟨by simp [Ty.mapSymbols], hknows⟩

/-- The union of types that correspond. -/
lemma Types.ofUnion {tys tys' : List Ty} (h : List.Forall₂ (ρ.Types t) tys tys') :
    Option.Rel (ρ.Types t) (Ty.ofUnion tys) (Ty.ofUnion tys') := by
  cases h with
  | nil => exact .none
  | cons hfirst hrest =>
      cases hrest with
      | nil => exact .some hfirst
      | cons hsecond hrest => exact .some (.union (.cons hfirst (.cons hsecond hrest)))

lemma Types.isAbsent {ty ty' : Ty} (h : ρ.Types t ty ty') : ty'.isAbsent = ty.isAbsent := by
  obtain ⟨rfl, -⟩ := h
  cases ty <;> rfl

lemma Params.type {p p' : Param} (h : ρ.Params t p p') : ρ.Types t p.type p'.type := by
  cases p
  obtain ⟨rfl, hknows⟩ := h
  exact ⟨rfl, hknows⟩

/-- What is not a type of a parameter has no numbers in it. -/
lemma Params.rest_eq {p p' : Param} (h : ρ.Params t p p') :
    p'.name = p.name ∧ p'.optional = p.optional ∧ p'.rest = p.rest := by
  cases p
  obtain ⟨rfl, -⟩ := h
  exact ⟨rfl, rfl, rfl⟩

lemma Params.argumentType {p p' : Param} (h : ρ.Params t p p') :
    ρ.Types t p.argumentType p'.argumentType := by
  obtain ⟨name, type, optional, rest⟩ := p
  obtain ⟨rfl, hknows⟩ := h
  cases rest <;> cases type <;> exact ⟨rfl, hknows⟩

lemma Signatures.typeParams {sig sig' : Signature} (h : ρ.Signatures t sig sig') :
    sig'.typeParams = sig.typeParams := by
  cases sig
  obtain ⟨rfl, -⟩ := h
  rfl

lemma Signatures.params {sig sig' : Signature} (h : ρ.Signatures t sig sig') :
    List.Forall₂ (ρ.Params t) sig.params sig'.params := by
  cases sig
  obtain ⟨rfl, hknows⟩ := h
  have hparams := forall₂_params (ρ := ρ) (SymbolTable.knows_append.mp hknows).1
  rwa [← Param.mapSymbolsAll_eq] at hparams

lemma Signatures.result {sig sig' : Signature} (h : ρ.Signatures t sig sig') :
    ρ.Types t sig.result sig'.result := by
  cases sig
  obtain ⟨rfl, hknows⟩ := h
  exact ⟨rfl, (SymbolTable.knows_append.mp hknows).2⟩

lemma Signatures.mk {params params' : List Param} {result result' : Ty} (typeParams : List String)
    (hparams : List.Forall₂ (ρ.Params t) params params') (hresult : ρ.Types t result result') :
    ρ.Signatures t ⟨typeParams, params, result⟩ ⟨typeParams, params', result'⟩ := by
  obtain ⟨rfl, hknows⟩ := Params.all hparams
  obtain ⟨rfl, hresult⟩ := hresult
  exact ⟨by simp [Signature.mapSymbols], SymbolTable.knows_append.mpr ⟨hknows, hresult⟩⟩

lemma Signatures.isVariadic {sig sig' : Signature} (h : ρ.Signatures t sig sig') :
    sig'.isVariadic = sig.isVariadic := by
  have hparams := h.params
  unfold Signature.isVariadic
  generalize sig.params = params at hparams ⊢
  generalize sig'.params = params' at hparams ⊢
  induction hparams with
  | nil => rfl
  | cons hp _ ih => rw [List.any_cons, List.any_cons, hp.rest_eq.2.2, ih]

end

/-- An alias with its body, and its counterpart. -/
def Bodies (t : SymbolTable) (found found' : Nat × Ty) : Prop :=
  found'.1 = ρ.symbol found.1 ∧ ρ.Types t found.2 found'.2

/-- Lists that correspond are mapped to lists that do, or both fail. -/
lemma rel_mapM {α β γ δ : Type} {R : α → γ → Prop} {S : β → δ → Prop} {f : α → Option β}
    {g : γ → Option δ} {xs : List α} {ys : List γ} (h : List.Forall₂ R xs ys)
    (hfg : ∀ {x y}, R x y → Option.Rel S (f x) (g y)) :
    Option.Rel (List.Forall₂ S) (xs.mapM f) (ys.mapM g) := by
  induction h with
  | nil => exact .some .nil
  | @cons x y xs ys hxy _ ih =>
      have hfirst := hfg hxy
      rw [List.mapM_cons, List.mapM_cons]
      generalize f x = a at hfirst ⊢
      generalize g y = b at hfirst ⊢
      cases hfirst with
      | none => exact .none
      | some hab =>
          generalize xs.mapM f = as at ih ⊢
          generalize ys.mapM g = bs at ih ⊢
          cases ih with
          | none => exact .none
          | some hrest => exact .some (.cons hab hrest)

lemma contains_map (ids : List Nat) (id : Nat) :
    (ids.map ρ.symbol).contains (ρ.symbol id) = ids.contains id := by
  rw [Bool.eq_iff_iff, List.contains_iff_mem, List.contains_iff_mem,
    List.mem_map_of_injective ρ.symbol_injective]

/-! ## What is read of the tables -/

namespace Tables

variable {ρ} {t t' : SymbolTable} (h : ρ.Tables t t')
include h

/-- A symbol that is there has its counterpart. -/
lemma get?_some {id : Nat} {s : Symbol} (hid : t.get? id = some s) :
    t'.get? (ρ.symbol id) = some (s.renumber ρ) := by
  rw [h.get?, hid]
  rfl

lemma displayName {id : Nat} {s : Symbol} (hid : t.get? id = some s) :
    t'.displayName (ρ.symbol id) = t.displayName id := by
  simp only [SymbolTable.displayName, h.get?_some hid, hid]
  rfl

lemma qualifiedName {id : Nat} {s : Symbol} (hid : t.get? id = some s) :
    t'.qualifiedName (ρ.symbol id) = t.qualifiedName id := by
  simp only [SymbolTable.qualifiedName, h.get?_some hid, hid]
  exact s.qualifiedName_renumber ρ

lemma sameText {ids : List Nat} (hids : t.Knows ids) : t.SameText t' ρ.symbol ids := by
  intro id hid
  obtain ⟨s, hs, -⟩ := hids id hid
  exact ⟨h.displayName hs, h.qualifiedName hs⟩

lemma text {ty ty' : Ty} (hty : ρ.Types t ty ty') : ty'.text t' = ty.text t := by
  obtain ⟨rfl, hknows⟩ := hty
  exact Ty.textAs_mapSymbols false ty (h.sameText hknows)

lemma functionText {sig sig' : Signature} (hsig : ρ.Signatures t sig sig') :
    sig'.functionText t' = sig.functionText t := by
  obtain ⟨rfl, hknows⟩ := hsig
  exact Signature.textWith_mapSymbols " => " sig (h.sameText hknows)

lemma memberText {m m' : Member} (hm : ρ.Members t m m') : m'.text t' = m.text t := by
  obtain ⟨rfl, hknows⟩ := hm
  exact Member.text_mapSymbols m (h.sameText hknows)

/-- What an alias stands for. -/
lemma aliased {id : Nat} {s : Symbol} {body : Ty} (hid : t.get? id = some s)
    (hbody : s.aliased = some body) : ρ.Types t body (body.mapSymbols ρ.symbol) :=
  ⟨rfl, (SymbolTable.knows_symbols.mp (h.closed id s hid)).1 body hbody⟩

lemma members {id : Nat} {s : Symbol} (hid : t.get? id = some s) :
    List.Forall₂ (ρ.Members t) s.members (s.renumber ρ).members :=
  forall₂_members (SymbolTable.knows_symbols.mp (h.closed id s hid)).2.1

lemma bases {id : Nat} {s : Symbol} (hid : t.get? id = some s) :
    List.Forall₂ (ρ.Types t) s.bases (s.renumber ρ).bases :=
  forall₂_types (SymbolTable.knows_symbols.mp (h.closed id s hid)).2.2

/-! ### Looking through aliases -/

lemma aliasBody? (expanding : List Nat) {ty ty' : Ty} (hty : ρ.Types t ty ty') :
    Option.Rel (ρ.Bodies t) (Interop.aliasBody? t expanding ty)
      (Interop.aliasBody? t' (expanding.map ρ.symbol) ty') := by
  obtain ⟨rfl, -⟩ := hty
  have hbody : ∀ id, Option.Rel (ρ.Bodies t) (Interop.aliasBody? t expanding (.alias id))
      (Interop.aliasBody? t' (expanding.map ρ.symbol) (.alias (ρ.symbol id))) := by
    intro id
    simp only [Interop.aliasBody?, h.get?]
    cases hid : t.get? id with
    | none => exact .none
    | some s =>
        simp only [Option.map_some, Symbol.renumber, ρ.contains_map]
        split_ifs
        · cases hbody : s.aliased with
          | none => exact .none
          | some body => exact .some ⟨rfl, h.aliased hid hbody⟩
        · exact .none
  cases ty with
  | «alias» id => exact hbody id
  | nominal id args =>
      cases args with
      | nil => exact hbody id
      | cons arg rest => exact .none
  | _ => exact .none

lemma followFrom (expanding : List Nat) : ∀ (steps : Nat) (seen : List Nat) {ty ty' : Ty},
    ρ.Types t ty ty' → ρ.Types t (Interop.followFrom t expanding steps seen ty)
      (Interop.followFrom t' (expanding.map ρ.symbol) steps (seen.map ρ.symbol) ty')
  | 0, _, _, _, hty => hty
  | steps + 1, seen, ty, ty', hty => by
      simp only [Interop.followFrom]
      have hbody := h.aliasBody? expanding hty
      generalize Interop.aliasBody? t expanding ty = found at hbody ⊢
      generalize Interop.aliasBody? t' (expanding.map ρ.symbol) ty' = found' at hbody ⊢
      cases hbody with
      | none => exact hty
      | @some found found' hfound =>
          obtain ⟨id, body⟩ := found
          obtain ⟨id', body'⟩ := found'
          obtain ⟨rfl, hbody⟩ := hfound
          simp only [ρ.contains_map]
          split_ifs
          · exact hty
          · exact followFrom expanding steps (id :: seen) hbody

lemma followAliases (expanding : List Nat) {ty ty' : Ty} (hty : ρ.Types t ty ty') :
    ρ.Types t (Interop.followAliases t expanding ty)
      (Interop.followAliases t' (expanding.map ρ.symbol) ty') := by
  unfold Interop.followAliases
  rw [h.size]
  exact h.followFrom expanding _ [] hty

/-- **Corresponding types have corresponding components**, and run out of steps together. -/
lemma components (expanding : List Nat) : ∀ (steps : Nat) {ty ty' : Ty}, ρ.Types t ty ty' →
    Option.Rel (List.Forall₂ (ρ.Types t)) (Interop.components t expanding steps ty)
      (Interop.components t' (expanding.map ρ.symbol) steps ty')
  | 0, _, _, _ => .none
  | steps + 1, ty, ty', hty => by
      have hall : ∀ {tys tys' : List Ty}, List.Forall₂ (ρ.Types t) tys tys' →
          Option.Rel (List.Forall₂ (ρ.Types t))
            ((tys.mapM (Interop.components t expanding steps)).map List.flatten)
            ((tys'.mapM (Interop.components t' (expanding.map ρ.symbol) steps)).map
              List.flatten) := by
        intro tys tys' htys
        have hparts := rel_mapM (f := Interop.components t expanding steps)
          (g := Interop.components t' (expanding.map ρ.symbol) steps) htys
          fun hty => components expanding steps hty
        generalize tys.mapM (Interop.components t expanding steps) = parts at hparts ⊢
        generalize tys'.mapM (Interop.components t' (expanding.map ρ.symbol) steps) = parts'
          at hparts ⊢
        cases hparts with
        | none => exact .none
        | some hparts => exact .some (List.rel_flatten hparts)
      have hfollowed := h.followAliases expanding hty
      simp only [Interop.components]
      generalize Interop.followAliases t expanding ty = followed at hfollowed ⊢
      obtain ⟨hfollowed', hknows⟩ := hfollowed
      rw [hfollowed']
      have hsingle : Option.Rel (List.Forall₂ (ρ.Types t)) (some [followed])
          (some [followed.mapSymbols ρ.symbol]) := .some (.cons ⟨rfl, hknows⟩ .nil)
      cases followed with
      | union members | intersection members =>
          simp only [Ty.mapSymbols, Ty.mapSymbolsAll_eq]
          exact hall (forall₂_types hknows)
      | _ => exact hsingle

/-! ### Declarations -/

lemma isBase {ty ty' : Ty} (hty : ρ.Types t ty ty') :
    Interop.isBase t' ty' = Interop.isBase t ty := by
  obtain ⟨rfl, -⟩ := hty
  cases ty with
  | nominal id args =>
      simp only [Ty.mapSymbols, Interop.isBase, h.get?]
      cases t.get? id <;> rfl
  | _ => rfl

lemma scriptTag {id : Nat} {s : Symbol} (hid : t.get? id = some s) (name : String) :
    Interop.scriptTag t' (ρ.symbol id) (s.renumber ρ) name = Interop.scriptTag t id s name := by
  simp only [Interop.scriptTag, h.qualifiedName hid, Symbol.renumber, Option.isNone_map]

end Tables

end Renumbering

end Interop
