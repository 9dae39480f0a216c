import Interop.Proofs.Expansion
import Mathlib.Data.List.Forall2

/-!
# Types with aliases inlined

A reference to an alias says the same as what it stands for, so one can stand in the place of the
other.  Where several types are merged that is so only if both count as the same types: an alias that
is looked through can always be inlined, another one only if it does not stand for a union.  And a
single argument of a declared type is left out if it says that there is no value, which is decided
without looking through aliases.

* `Inlines` — one type is another one in which references were replaced, each by what it stands for.
* `Inlines.refl`, `Inlines.weaken` — a reference need not be replaced, and may be where less is
  asked.
* **`Inlines.components`** — what types count as, with references replaced.
* **`Inlines.substitute`** — references in arguments are replaced in what an alias expands to.
-/

namespace Interop

/-- Where a type stands, which decides what a reference may be replaced by. -/
inductive InlinePlace where
  /-- The type is rendered. -/
  | text
  /-- The type is merged with others. -/
  | part
  /-- The type is put in for a type parameter, wherever that stands. -/
  | argument
  deriving DecidableEq, Repr

/-- Whether a type has members that are merged. -/
def Ty.isUnion : Ty → Bool
  | .union _ | .intersection _ => true
  | _ => false

/-- What is looked through to no union counts as that. -/
lemma components_of_isUnion {table : SymbolTable} {expanding : List Nat} {steps : Nat} {ty : Ty}
    (h : (followAliases table expanding ty).isUnion = false) :
    components table expanding (steps + 1) ty = some [followAliases table expanding ty] := by
  unfold components
  generalize followAliases table expanding ty = last at h ⊢
  cases last <;> first | rfl | cases h

lemma SymbolTable.Expands.isUnion {table : SymbolTable} {ty body : Ty} {id : Nat}
    (h : table.Expands ty id body) : ty.isUnion = false := by
  obtain ⟨args, symbol, definition, hty, hrest⟩ := h
  rcases Ty.reference?_eq_some.mp hty with ⟨rfl, -⟩ | rfl <;> rfl

/-- The signature of an object type that can only be called. -/
def Member.onlyCall? : List Member → Option Signature
  | [⟨_, .call sig, _, _⟩] => some sig
  | _ => none

/-- Parameters that may differ in their types alone. -/
def Param.SameBut (p p' : Param) : Prop :=
  p.name = p'.name ∧ p.optional = p'.optional ∧ p.rest = p'.rest

/-- **A type in which references to aliases were replaced**, each by what it stands for.  Where notes
are written, none is. -/
inductive Inlines (table : SymbolTable) (notes : Bool) : InlinePlace → Ty → Ty → Prop
  | primitive {place : InlinePlace} (kind : Primitive) :
      Inlines table notes place (.primitive kind) (.primitive kind)
  | literal {place : InlinePlace} (kind : LiteralKind) (text : String) :
      Inlines table notes place (.literal kind text) (.literal kind text)
  | raw {place : InlinePlace} (text : String) : Inlines table notes place (.raw text) (.raw text)
  | param {place : InlinePlace} (name : String) :
      Inlines table notes place (.param name) (.param name)
  | alias {place : InlinePlace} (id : Nat) : Inlines table notes place (.alias id) (.alias id)
  | nominal {place : InlinePlace} (id : Nat) {args args' : List Ty} :
      args.length = args'.length →
      (∀ arg arg', (arg, arg') ∈ args.zip args' → Inlines table notes .argument arg arg') →
        Inlines table notes place (.nominal id args) (.nominal id args')
  /-- The arguments of what is no alias are only rendered. -/
  | declared {place : InlinePlace} {id : Nat} {args args' : List Ty} :
      (∀ symbol, table.get? id = some symbol → symbol.kind ≠ .alias) →
      omitsArguments args = omitsArguments args' → args.length = args'.length →
      (∀ arg arg', (arg, arg') ∈ args.zip args' → Inlines table notes .text arg arg') →
        Inlines table notes place (.nominal id args) (.nominal id args')
  | array {place : InlinePlace} {element element' : Ty} :
      Inlines table notes .part element element' →
        Inlines table notes place (.array element) (.array element')
  | tuple {place : InlinePlace} {elements elements' : List Ty} :
      elements.length = elements'.length →
      (∀ ty ty', (ty, ty') ∈ elements.zip elements' → Inlines table notes .part ty ty') →
        Inlines table notes place (.tuple elements) (.tuple elements')
  | union {place : InlinePlace} {members members' : List Ty} : members.length = members'.length →
      (∀ ty ty', (ty, ty') ∈ members.zip members' → Inlines table notes .part ty ty') →
        Inlines table notes place (.union members) (.union members')
  | intersection {place : InlinePlace} {members members' : List Ty} :
      members.length = members'.length →
      (∀ ty ty', (ty, ty') ∈ members.zip members' → Inlines table notes .part ty ty') →
        Inlines table notes place (.intersection members) (.intersection members')
  | function {place : InlinePlace} (typeParams : List String) {params params' : List Param}
      {result result' : Ty} : params.length = params'.length →
      (∀ p p', (p, p') ∈ params.zip params' → p.SameBut p') →
      (∀ p p', (p, p') ∈ params.zip params' → Inlines table notes .text p.type p'.type) →
      Inlines table notes .text result result' →
        Inlines table notes place (.function ⟨typeParams, params, result⟩)
          (.function ⟨typeParams, params', result'⟩)
  | call {place : InlinePlace} {sig sig' : Signature} (name : Option String) (isStatic : Bool)
      (span : Span) : Inlines table notes .text (.function sig) (.function sig') →
        Inlines table notes place (.shape [⟨name, .call sig, isStatic, span⟩])
          (.shape [⟨name, .call sig', isStatic, span⟩])
  /-- Of other object types, only notes show their members. -/
  | shape {place : InlinePlace} {members members' : List Member} :
      Member.onlyCall? members = none → Member.onlyCall? members' = none →
      (notes = true → members = members') →
        Inlines table notes place (.shape members) (.shape members')
  /-- A reference is replaced. -/
  | inline {place : InlinePlace} {ty body ty' : Ty} {id : Nat} : notes = false →
      table.Expands ty id body →
      (place ≠ .text → aliasBody? table [] ty = none →
        (followAliases table [] ty').isUnion = false) →
      (place = .argument → ty'.isAbsent = false) →
      Inlines table notes place body ty' → Inlines table notes place ty ty'
  /-- A replacement is looked through. -/
  | follow {place : InlinePlace} {ty ty' body : Ty} {id : Nat} : notes = false →
      place ≠ .argument → aliasBody? table [] ty' = some (id, body) →
      Inlines table notes place ty ty' → Inlines table notes place ty body

namespace Inlines

variable {table : SymbolTable} {notes : Bool} {place : InlinePlace} {ty ty' : Ty}

/-! ## Nothing replaced -/

lemma forall₂_of_zip {α β : Type} {R : α → β → Prop} {xs : List α} {ys : List β}
    (hlength : xs.length = ys.length) (h : ∀ x y, (x, y) ∈ xs.zip ys → R x y) :
    List.Forall₂ R xs ys :=
  List.forall₂_iff_zip.mpr ⟨hlength, fun hxy => h _ _ hxy⟩

lemma eq_of_zip {α : Type} {xs ys : List α} (hlength : xs.length = ys.length)
    (h : ∀ x y, (x, y) ∈ xs.zip ys → x = y) : xs = ys := by
  have hforall := forall₂_of_zip hlength h
  rwa [List.forall₂_eq_eq_eq] at hforall

/-- Where notes are written, nothing is replaced. -/
lemma eq (h : Inlines table notes place ty ty') (hnotes : notes = true) : ty = ty' := by
  induction h with
  | primitive | literal | raw | param | «alias» => rfl
  | nominal id hlength _ ih => rw [eq_of_zip hlength ih]
  | declared _ _ hlength _ ih => rw [eq_of_zip hlength ih]
  | array _ ih => rw [ih]
  | tuple hlength _ ih => rw [eq_of_zip hlength ih]
  | union hlength _ ih => rw [eq_of_zip hlength ih]
  | intersection hlength _ ih => rw [eq_of_zip hlength ih]
  | @function _ typeParams params params' _ _ hlength hsame _ _ ih ihresult =>
      have hparams : ∀ p p', (p, p') ∈ params.zip params' → p = p' := by
        rintro ⟨name, type, optional, rest⟩ ⟨name', type', optional', rest'⟩ hp
        obtain ⟨rfl, rfl, rfl⟩ := hsame _ _ hp
        rw [show type = type' from ih _ _ hp]
      rw [ihresult, eq_of_zip hlength hparams]
  | call name isStatic span _ ih => rw [Ty.function.inj ih]
  | shape _ _ hmembers => rw [hmembers hnotes]
  | inline hfalse => exact absurd (hnotes.symm.trans hfalse) (by simp)
  | follow hfalse => exact absurd (hnotes.symm.trans hfalse) (by simp)

lemma zipped {α β : Type} {R : α → β → Prop} {xs : List α} {ys : List β}
    (h : List.Forall₂ R xs ys) : xs.length = ys.length ∧ ∀ x y, (x, y) ∈ xs.zip ys → R x y :=
  ⟨h.length_eq, fun _ _ hxy => (List.forall₂_iff_zip.mp h).2 hxy⟩

lemma sizeOf_type_lt {p : Param} {params : List Param} (hp : p ∈ params) :
    sizeOf p.type < sizeOf params := by
  have := List.sizeOf_lt_of_mem hp
  obtain ⟨name, type, optional, rest⟩ := p
  simp only [Param.mk.sizeOf_spec] at this
  show sizeOf type < sizeOf params
  omega

/-- **Nothing needs to be replaced.** -/
lemma refl : ∀ (place : InlinePlace) (ty : Ty), Inlines table notes place ty ty
  | _, .primitive kind => .primitive kind
  | _, .literal kind text => .literal kind text
  | _, .raw text => .raw text
  | _, .param name => .param name
  | _, .alias id => .alias id
  | _, .nominal id args =>
      have h := zipped (List.forall₂_same.mpr fun arg (_ : arg ∈ args) => refl .argument arg)
      .nominal id h.1 h.2
  | _, .array element => .array (refl .part element)
  | _, .tuple elements =>
      have h := zipped (List.forall₂_same.mpr fun ty (_ : ty ∈ elements) => refl .part ty)
      .tuple h.1 h.2
  | _, .union members =>
      have h := zipped (List.forall₂_same.mpr fun ty (_ : ty ∈ members) => refl .part ty)
      .union h.1 h.2
  | _, .intersection members =>
      have h := zipped (List.forall₂_same.mpr fun ty (_ : ty ∈ members) => refl .part ty)
      .intersection h.1 h.2
  | _, .function ⟨typeParams, params, result⟩ =>
      have h := zipped (R := fun p p' : Param => p.SameBut p' ∧
        Inlines table notes .text p.type p'.type)
        (List.forall₂_same.mpr fun p (hp : p ∈ params) =>
          have := sizeOf_type_lt hp
          ⟨⟨rfl, rfl, rfl⟩, refl .text p.type⟩)
      .function typeParams h.1 (fun p p' hp => (h.2 p p' hp).1) (fun p p' hp => (h.2 p p' hp).2)
        (refl .text result)
  | place, .shape members => by
      cases hcall : Member.onlyCall? members with
      | none => exact .shape hcall hcall fun _ => rfl
      | some sig =>
          rcases members with _ | ⟨⟨name, kind, isStatic, span⟩, _ | ⟨second, rest⟩⟩
          · cases hcall
          · cases kind with
            | call sig' =>
                obtain ⟨typeParams, params, result⟩ := sig'
                exact .call name isStatic span (refl .text (.function ⟨typeParams, params, result⟩))
            | _ => cases hcall
          · cases kind <;> cases hcall
  termination_by _ ty => sizeOf ty

/-! ## Places -/

/-- What may be replaced where much is asked may be replaced where less is. -/
lemma weaken {place' : InlinePlace} (h : Inlines table notes place ty ty')
    (hpart : place' ≠ .text → place ≠ .text) (hargument : place' = .argument → place = .argument) :
    Inlines table notes place' ty ty' := by
  induction h with
  | primitive kind => exact .primitive kind
  | literal kind text => exact .literal kind text
  | raw text => exact .raw text
  | param name => exact .param name
  | «alias» id => exact .alias id
  | nominal id hlength hargs => exact .nominal id hlength hargs
  | declared hkind homits hlength hargs => exact .declared hkind homits hlength hargs
  | array helement => exact .array helement
  | tuple hlength helements => exact .tuple hlength helements
  | union hlength hmembers => exact .union hlength hmembers
  | intersection hlength hmembers => exact .intersection hlength hmembers
  | function typeParams hlength hsame hparams hresult =>
      exact .function typeParams hlength hsame hparams hresult
  | call name isStatic span hsig => exact .call name isStatic span hsig
  | shape hcall hcall' hmembers => exact .shape hcall hcall' hmembers
  | inline hnotes hexpands hunion habsent _ ih =>
      exact .inline hnotes hexpands (fun h => hunion (hpart h)) (fun h => habsent (hargument h))
        (ih hpart hargument)
  | follow hnotes hplace hbody _ ih =>
      exact .follow hnotes (fun h => hplace (hargument h)) hbody (ih hpart hargument)

lemma text (h : Inlines table notes place ty ty') : Inlines table notes .text ty ty' :=
  h.weaken (fun h => absurd rfl h) (fun h => by cases h)

lemma part (h : Inlines table notes .argument ty ty') : Inlines table notes .part ty ty' :=
  h.weaken (fun _ => by simp) (fun h => by cases h)

/-- Arguments that are replaced still say, or do not say, that there is no value. -/
lemma isAbsent (h : Inlines table notes .argument ty ty') : ty.isAbsent = ty'.isAbsent := by
  cases h with
  | inline _ hexpands _ habsent _ =>
      obtain ⟨args, -, -, hty, -⟩ := hexpands
      rw [habsent rfl]
      rcases Ty.reference?_eq_some.mp hty with ⟨rfl, -⟩ | rfl <;> rfl
  | follow _ hplace => exact absurd rfl hplace
  | _ => rfl

lemma omitsArguments {args args' : List Ty}
    (h : List.Forall₂ (Inlines table notes .argument) args args') :
    omitsArguments args = Interop.omitsArguments args' := by
  cases h with
  | nil => rfl
  | cons hfirst hrest => cases hrest with
    | nil => exact hfirst.isAbsent
    | cons => rfl

/-! ## What types count as -/

/-- What types are looked through to, with references replaced: both are merged member by member, or
neither is. -/
inductive Followed (table : SymbolTable) (notes : Bool) : Ty → Ty → Prop
  | union {members members' : List Ty} : List.Forall₂ (Inlines table notes .part) members members' →
      Followed table notes (.union members) (.union members')
  | intersection {members members' : List Ty} :
      List.Forall₂ (Inlines table notes .part) members members' →
      Followed table notes (.intersection members) (.intersection members')
  | one {ty ty' : Ty} : ty.isUnion = false → ty'.isUnion = false →
      Inlines table notes .part ty ty' → Followed table notes ty ty'

lemma Followed.refl (ty : Ty) : Followed table notes ty ty := by
  cases ty with
  | union members => exact .union (List.forall₂_same.mpr fun _ _ => Inlines.refl _ _)
  | intersection members => exact .intersection (List.forall₂_same.mpr fun _ _ => Inlines.refl _ _)
  | _ => exact .one rfl rfl (Inlines.refl _ _)

/-- A replacement is looked through as far as may be. -/
lemma followAliases (h : Inlines table notes .part ty ty') (hnotes : notes = false) :
    Inlines table notes .part ty (followAliases table [] ty') :=
  (follows_followAliases table [] ty').keeps
    (fun _ _ _ hbody h => .follow hnotes (by simp) hbody h) h

/-- **What is looked through**, with references replaced. -/
lemma followed (htable : table.Regular) (h : Inlines table notes place ty ty')
    (hplace : place ≠ .text) :
    Followed table notes (Interop.followAliases table [] ty)
      (Interop.followAliases table [] ty') := by
  -- a reference without arguments is the same on both sides, and one with arguments is not followed
  have hnominal : ∀ {id : Nat} {args args' : List Ty}, args.length = args'.length →
      Inlines table notes .part (.nominal id args) (.nominal id args') →
        Followed table notes (Interop.followAliases table [] (.nominal id args))
          (Interop.followAliases table [] (.nominal id args')) := by
    intro id args args' hlength hone
    rcases args with _ | ⟨arg, rest⟩ <;> rcases args' with _ | ⟨arg', rest'⟩
    · exact .refl _
    · cases hlength
    · cases hlength
    · exact .one rfl rfl hone
  induction h with
  | primitive | literal | raw | param | «alias» => exact .refl _
  | nominal id hlength hargs =>
      exact hnominal hlength (.nominal id hlength hargs)
  | declared hkind homits hlength hargs =>
      exact hnominal hlength (.declared hkind homits hlength hargs)
  | array helement => exact .one rfl rfl (.array helement)
  | tuple hlength helements => exact .one rfl rfl (.tuple hlength helements)
  | union hlength hmembers => exact .union (forall₂_of_zip hlength hmembers)
  | intersection hlength hmembers => exact .intersection (forall₂_of_zip hlength hmembers)
  | function typeParams hlength hsame hparams hresult =>
      exact .one rfl rfl (.function typeParams hlength hsame hparams hresult)
  | call name isStatic span hsig => exact .one rfl rfl (.call name isStatic span hsig)
  | shape hcall hcall' hmembers => exact .one rfl rfl (.shape hcall hcall' hmembers)
  | @inline place ty body ty' id hnotes hexpands hunion habsent hrest ih =>
      cases hbody : aliasBody? table [] ty with
      | some next =>
          obtain ⟨id', body'⟩ := next
          obtain ⟨rfl, rfl⟩ := hexpands.unique (expands_of_aliasBody? hbody)
          rw [followAliases_aliasBody? htable.acyclic hbody]
          exact ih hplace
      | none =>
          rw [followAliases_of_none hbody]
          have hpart : Inlines table notes .part ty ty' :=
            (Inlines.inline hnotes hexpands hunion habsent hrest).weaken (fun _ => hplace)
              (fun h => by cases h)
          exact .one hexpands.isUnion (hunion hplace hbody) (hpart.followAliases hnotes)
  | follow hnotes _ hbody _ ih =>
      rw [← followAliases_aliasBody? htable.acyclic hbody]
      exact ih hplace

/-- **What types count as**, with references replaced. -/
lemma components (htable : table.Regular) : ∀ {steps steps' : Nat}, steps ≤ steps' →
    ∀ {ty ty' : Ty}, Inlines table notes .part ty ty' → ∀ {parts : List Ty},
      Interop.components table [] steps ty = some parts → ∃ parts',
        Interop.components table [] steps' ty' = some parts' ∧
          List.Forall₂ (Inlines table notes .part) parts parts'
  | 0, _, _, _, _, _, _, hparts => by cases hparts
  | steps + 1, 0, hsteps, _, _, _, _, _ => by omega
  | steps + 1, steps' + 1, hsteps, ty, ty', h, parts, hparts => by
      have hmembers : ∀ {members members' : List Ty} {lists : List (List Ty)},
          List.Forall₂ (Inlines table notes .part) members members' →
            members.mapM (Interop.components table [] steps) = some lists → ∃ lists',
              members'.mapM (Interop.components table [] steps') = some lists' ∧
                List.Forall₂ (List.Forall₂ (Inlines table notes .part)) lists lists' := by
        intro members members' lists hmembers
        induction hmembers generalizing lists with
        | nil =>
            intro hlists
            obtain rfl := Option.some.inj hlists
            exact ⟨[], rfl, .nil⟩
        | cons hmember _ ih =>
            intro hlists
            rw [List.mapM_cons] at hlists
            obtain ⟨first, hfirst, hlists⟩ := Option.bind_eq_some_iff.mp hlists
            obtain ⟨rest, hrest, hlists⟩ := Option.bind_eq_some_iff.mp hlists
            obtain rfl := Option.some.inj hlists
            obtain ⟨first', hfirst', hparts⟩ :=
              components htable (Nat.le_of_succ_le_succ hsteps) hmember hfirst
            obtain ⟨rest', hrest', hlists'⟩ := ih hrest
            refine ⟨first' :: rest', ?_, .cons hparts hlists'⟩
            rw [List.mapM_cons, hfirst', hrest']
            rfl
      have hfollowed := h.followed htable (by simp)
      generalize hlast : Interop.followAliases table [] ty = last at hfollowed
      generalize hlast' : Interop.followAliases table [] ty' = last' at hfollowed
      cases hfollowed with
      | union hall | intersection hall =>
          simp only [Interop.components, hlast, hlast'] at hparts ⊢
          obtain ⟨lists, hlists, rfl⟩ := Option.map_eq_some_iff.mp hparts
          obtain ⟨lists', hlists', hall'⟩ := hmembers hall hlists
          exact ⟨lists'.flatten, by rw [hlists']; rfl, List.rel_flatten hall'⟩
      | one hunion hunion' hone =>
          rw [components_of_isUnion (hlast ▸ hunion), hlast] at hparts
          obtain rfl := Option.some.inj hparts
          exact ⟨[last'], by rw [components_of_isUnion (hlast' ▸ hunion'), hlast'], .cons hone .nil⟩

/-! ## Arguments -/

/-- Bindings in which references were replaced. -/
def Entries (table : SymbolTable) (notes : Bool) : Bindings → Bindings → Prop :=
  List.Forall₂ fun entry entry' =>
    entry.1 = entry'.1 ∧ Inlines table notes .argument entry.2 entry'.2

namespace Entries

variable {b b' : Bindings}

lemma eq (h : Entries table notes b b') (hnotes : notes = true) : b = b' := by
  have hforall := h.imp (S := fun e e' => e = e') fun e e' he => Prod.ext he.1 (he.2.eq hnotes)
  rwa [List.forall₂_eq_eq_eq] at hforall

lemma hide (h : Entries table notes b b') (names : List String) :
    Entries table notes (b.hiding names) (b'.hiding names) := by
  refine List.rel_filter (fun entry entry' hentry => ?_) h
  show (!names.contains entry.1) = true ↔ (!names.contains entry'.1) = true
  rw [hentry.1]

/-- The arguments of an alias stand for its parameters. -/
lemma ofArguments {args args' : List Ty}
    (hargs : List.Forall₂ (Inlines table notes .argument) args args') (params : List String) :
    Entries table notes (aliasBindings params args) (aliasBindings params args') := by
  have hget : ∀ i : Nat,
      Inlines table notes .argument (args[i]?.getD .any) (args'[i]?.getD .any) := by
    induction hargs with
    | nil => exact fun _ => Inlines.refl _ _
    | cons hfirst _ ih =>
        rintro (_ | i)
        · exact hfirst
        · exact ih i
  refine List.rel_reverse ?_
  rw [List.forall₂_map_left_iff, List.forall₂_map_right_iff, List.forall₂_same]
  exact fun entry _ => ⟨rfl, hget entry.2⟩

lemma lookup (h : Entries table notes b b') (name : String) :
    Option.Rel (Inlines table notes .argument) (b.lookup name) (b'.lookup name) := by
  induction h with
  | nil => exact .none
  | @cons entry entry' rest rest' hentry _ ih =>
      obtain ⟨key, ty⟩ := entry
      obtain ⟨key', ty'⟩ := entry'
      obtain ⟨rfl, hty⟩ := hentry
      rw [List.lookup_cons, List.lookup_cons]
      cases name == key with
      | true => exact .some hty
      | false => exact ih

end Entries

lemma onlyCall?_substituteAll {b : Bindings} : ∀ members : List Member,
    Member.onlyCall? (Member.substituteAll b members) =
      (Member.onlyCall? members).map (Signature.substitute b)
  | [] => rfl
  | [⟨_, kind, _, _⟩] => by cases kind <;> rfl
  | ⟨_, kind, _, _⟩ :: _ :: _ => by cases kind <;> rfl

/-- Types that are made of the same types are related if the types are. -/
lemma all_substitute {R : Ty → Ty → Prop} {b b' : Bindings} {tys : List Ty}
    (h : ∀ ty ∈ tys, R (ty.substitute b) (ty.substitute b')) :
    List.Forall₂ R (Ty.substituteAll b tys) (Ty.substituteAll b' tys) := by
  rw [Ty.substituteAll_eq, Ty.substituteAll_eq, List.forall₂_map_left_iff,
    List.forall₂_map_right_iff, List.forall₂_same]
  exact h

/-- **References in what is put in for type parameters** are replaced in the whole. -/
lemma substitute {b b' : Bindings} (hb : Entries table notes b b') : ∀ ty : Ty,
    Inlines table notes .argument (ty.substitute b) (ty.substitute b')
  | .primitive kind => .primitive kind
  | .literal kind text => .literal kind text
  | .raw text => .raw text
  | .alias id => .alias id
  | .param name => by
      have hlookup := hb.lookup name
      simp only [Ty.substitute]
      generalize b.lookup name = found at hlookup ⊢
      generalize b'.lookup name = found' at hlookup ⊢
      cases hlookup with
      | none => exact .param name
      | some h => exact h
  | .nominal id args =>
      have h := zipped (all_substitute fun arg (_ : arg ∈ args) => substitute hb arg)
      .nominal id h.1 h.2
  | .array element => .array (substitute hb element).part
  | .tuple elements =>
      have h := zipped (all_substitute fun ty (_ : ty ∈ elements) => (substitute hb ty).part)
      .tuple h.1 h.2
  | .union members =>
      have h := zipped (all_substitute fun ty (_ : ty ∈ members) => (substitute hb ty).part)
      .union h.1 h.2
  | .intersection members =>
      have h := zipped (all_substitute fun ty (_ : ty ∈ members) => (substitute hb ty).part)
      .intersection h.1 h.2
  | .function ⟨typeParams, params, result⟩ => by
      have hparams : List.Forall₂ (fun p p' : Param => p.SameBut p' ∧
          Inlines table notes .text p.type p'.type)
          (Param.substituteAll (b.hiding typeParams) params)
          (Param.substituteAll (b'.hiding typeParams) params) := by
        rw [Param.substituteAll_eq, Param.substituteAll_eq, List.forall₂_map_left_iff,
          List.forall₂_map_right_iff, List.forall₂_same]
        rintro ⟨name, type, optional, rest⟩ hp
        have : sizeOf type < sizeOf params := sizeOf_type_lt hp
        exact ⟨⟨rfl, rfl, rfl⟩, (substitute (hb.hide typeParams) type).text⟩
      have h := zipped hparams
      exact .function typeParams h.1 (fun p p' hp => (h.2 p p' hp).1)
        (fun p p' hp => (h.2 p p' hp).2) (substitute (hb.hide typeParams) result).text
  | .shape members => by
      cases hcall : Member.onlyCall? members with
      | none =>
          refine .shape ?_ ?_ fun hnotes => ?_
          · rw [onlyCall?_substituteAll, hcall, Option.map_none]
          · rw [onlyCall?_substituteAll, hcall, Option.map_none]
          · rw [hb.eq hnotes]
      | some sig =>
          rcases members with _ | ⟨⟨name, kind, isStatic, span⟩, _ | ⟨second, rest⟩⟩
          · cases hcall
          · cases kind with
            | call sig' =>
                obtain ⟨typeParams, params, result⟩ := sig'
                exact .call name isStatic span
                  (substitute hb (.function ⟨typeParams, params, result⟩)).text
            | _ => cases hcall
          · cases kind <;> cases hcall
  termination_by ty => sizeOf ty

/-- What references to one alias stand for, with references in the arguments replaced. -/
lemma expansion (symbol : Symbol) (definition : Ty) {args args' : List Ty}
    (hargs : List.Forall₂ (Inlines table notes .argument) args args') :
    Inlines table notes .text
      (if symbol.typeParams.isEmpty then definition
        else definition.substitute (aliasBindings symbol.typeParams args))
      (if symbol.typeParams.isEmpty then definition
        else definition.substitute (aliasBindings symbol.typeParams args')) := by
  split_ifs
  · exact refl _ _
  · exact (substitute (.ofArguments hargs _) definition).text

end Inlines

end Interop
