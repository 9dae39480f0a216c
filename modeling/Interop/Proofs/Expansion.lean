import Interop.Proofs.Following
import Interop.Proofs.Rendering
import Interop.Proofs.Renumbering.Types
import Mathlib.Logic.Relation

/-!
# What aliases expand to

A reference to an alias is expanded to the definition of the alias, with arguments in the place of
its parameters.  While that is rendered the alias counts as being expanded, and if it came up again
it would be reported as recursive.  It comes up again where definitions go round in a circle, but
also where it stands in an argument of its own, as in `Box<Box<number>>`, or where an argument and
the definition both lead to it.

* `SymbolTable.Expands` — what a reference stands for.
* `SymbolTable.Regular` — no definition leads back to its alias, and in no definition an alias with
  parameters is shared between a reference and its arguments.
* `Ty.Safe` — a type in which nothing comes up that is being expanded.
* **`Ty.Safe.expand`** — a safe type stays safe when a reference in it is expanded.
* **`components_of_safe`** — what a safe type counts as does not depend on what is being expanded.
-/

namespace Interop

open Relation Work

/-! ## One alias -/

/-- A reference to a symbol: its number and its arguments. -/
def Ty.reference? : Ty → Option (Nat × List Ty)
  | .alias id => some (id, [])
  | .nominal id args => some (id, args)
  | _ => none

lemma Ty.reference?_eq_some {ty : Ty} {id : Nat} {args : List Ty} :
    ty.reference? = some (id, args) ↔ ty = .alias id ∧ args = [] ∨ ty = .nominal id args := by
  cases ty <;> simp [Ty.reference?, eq_comm]

/-- **What a reference to an alias stands for.** -/
def SymbolTable.Expands (table : SymbolTable) (ty : Ty) (id : Nat) (body : Ty) : Prop :=
  ∃ args symbol definition, ty.reference? = some (id, args) ∧ table.get? id = some symbol ∧
    symbol.kind = .alias ∧ symbol.aliased = some definition ∧
    body = if symbol.typeParams.isEmpty then definition
      else definition.substitute (aliasBindings symbol.typeParams args)

/-- An alias whose definition mentions a symbol. -/
def SymbolTable.Uses (table : SymbolTable) (id other : Nat) : Prop :=
  ∃ symbol definition, table.get? id = some symbol ∧ symbol.kind = .alias ∧
    symbol.aliased = some definition ∧ other ∈ definition.symbols

/-- An alias with parameters. -/
def SymbolTable.IsGeneric (table : SymbolTable) (id : Nat) : Prop :=
  ∃ symbol, table.get? id = some symbol ∧ symbol.kind = .alias ∧ symbol.typeParams ≠ []

/-- Two symbols that do not lead to the same alias with parameters. -/
def SymbolTable.Unshared (table : SymbolTable) (id other : Nat) : Prop :=
  ∀ shared, ReflTransGen table.Uses id shared → ReflTransGen table.Uses other shared →
    ¬ table.IsGeneric shared

variable {table : SymbolTable} {expanding : List Nat}

lemma SymbolTable.Unshared.left {id next other : Nat} (h : table.Unshared id other)
    (hnext : ReflTransGen table.Uses id next) : table.Unshared next other :=
  fun shared hshared => h shared (hnext.trans hshared)

lemma SymbolTable.Unshared.right {id other next : Nat} (h : table.Unshared id other)
    (hnext : ReflTransGen table.Uses other next) : table.Unshared id next :=
  fun shared hid hshared => h shared hid (hnext.trans hshared)

/-- What is looked through is expanded. -/
lemma expands_of_aliasBody? {ty body : Ty} {id : Nat}
    (h : aliasBody? table expanding ty = some (id, body)) : table.Expands ty id body := by
  obtain ⟨hty, -, symbol, hget, hkind, hparams, hbody⟩ := aliasBody?_eq_some.mp h
  refine ⟨[], symbol, body, ?_, hget, hkind, hbody, by simp [hparams]⟩
  rcases hty with rfl | rfl <;> rfl

lemma uses_of_aliasBody? {ty body : Ty} {id other : Nat}
    (h : aliasBody? table expanding ty = some (id, body)) (hother : other ∈ body.symbols) :
    table.Uses id other := by
  obtain ⟨-, -, symbol, hget, hkind, -, hbody⟩ := aliasBody?_eq_some.mp h
  exact ⟨symbol, body, hget, hkind, hbody, hother⟩

lemma SymbolTable.Expands.unique {ty body body' : Ty} {id id' : Nat} (h : table.Expands ty id body)
    (h' : table.Expands ty id' body') : id = id' ∧ body = body' := by
  obtain ⟨args, symbol, definition, hty, hget, -, hdefinition, rfl⟩ := h
  obtain ⟨args', symbol', definition', hty', hget', -, hdefinition', rfl⟩ := h'
  obtain ⟨rfl, rfl⟩ := Prod.mk.inj (Option.some.inj (hty.symm.trans hty'))
  obtain rfl := Option.some.inj (hget.symm.trans hget')
  obtain rfl := Option.some.inj (hdefinition.symm.trans hdefinition')
  exact ⟨rfl, rfl⟩

lemma SymbolTable.Expands.mem_symbols {ty body : Ty} {id : Nat} (h : table.Expands ty id body) :
    id ∈ ty.symbols := by
  obtain ⟨args, -, -, hty, -⟩ := h
  rcases Ty.reference?_eq_some.mp hty with ⟨rfl, -⟩ | rfl <;> exact List.mem_cons_self

/-- Only what the arguments mention is mentioned in what the parameters of an alias stand for. -/
lemma mem_of_aliasBindings {params : List String} {args : List Ty} {id : Nat}
    (h : (aliasBindings params args).Mentions id) : id ∈ Ty.symbolsAll args := by
  obtain ⟨entry, hentry, hid⟩ := h
  rcases snd_of_mem_aliasBindings hentry with harg | hany
  · exact Ty.mem_symbolsAll.mpr ⟨entry.2, harg, hid⟩
  · rw [hany] at hid
    cases hid

/-- What is mentioned in what a reference stands for is mentioned in the definition, or came in
through the arguments. -/
lemma SymbolTable.Expands.symbols {ty body : Ty} {id other : Nat} (h : table.Expands ty id body)
    (hother : other ∈ body.symbols) : table.Uses id other ∨
      table.IsGeneric id ∧ ∃ args, ty = .nominal id args ∧ other ∈ Ty.symbolsAll args := by
  obtain ⟨args, symbol, definition, hty, hget, hkind, hdefinition, rfl⟩ := h
  split_ifs at hother with hparams
  · exact Or.inl ⟨symbol, definition, hget, hkind, hdefinition, hother⟩
  · rcases Ty.mem_symbols_substitute definition hother with hother | hmentions
    · exact Or.inl ⟨symbol, definition, hget, hkind, hdefinition, hother⟩
    · have hmem := mem_of_aliasBindings hmentions
      rcases Ty.reference?_eq_some.mp hty with ⟨-, rfl⟩ | rfl
      · cases hmem
      · exact Or.inr ⟨⟨symbol, hget, hkind, by simpa using hparams⟩, args, rfl, hmem⟩

/-! ### Rendering a reference -/

/-- The definition of an alias is rendered in the place of a reference that is not being
expanded. -/
lemma exec_renderSymbol_alias {render : Renderer} {id : Nat} {args : List Ty} {o : RenderOptions}
    {symbol : Symbol} {definition : Ty} {s : Session} (hget : s.table.get? id = some symbol)
    (hkind : symbol.kind = .alias) (hdefinition : symbol.aliased = some definition)
    (hid : id ∉ s.expanding) :
    (renderSymbol render id args o).exec s = (Work.expanding id (render
      (if symbol.typeParams.isEmpty then definition
        else definition.substitute (aliasBindings symbol.typeParams args))
      { o with typeArguments := none })).exec s := by
  unfold renderSymbol
  rw [exec_table_bind]
  simp only [hget, hkind]
  unfold renderAlias
  simp only [hdefinition]
  rw [exec_get_bind]
  simp only [List.contains_iff_mem, hid, if_false]

/-- **A reference to an alias that is not being expanded** is rendered as what it stands for. -/
lemma exec_renderWithin_expands {depth : Nat} {ty body : Ty} {id : Nat} {o : RenderOptions}
    {s : Session} (hexpands : s.table.Expands ty id body) (hid : id ∉ s.expanding)
    (ho : o.Plain) : (renderWithin (depth + 1) ty o).exec s =
      (Work.expanding id (renderWithin depth body o)).exec s := by
  have hplain : { o with typeArguments := none } = o := by rw [← ho.typeArguments]
  obtain ⟨args, symbol, definition, hreference, hget, hkind, hdefinition, rfl⟩ := hexpands
  have hsymbol := @exec_renderSymbol_alias (renderWithin depth) id args o symbol definition s
    hget hkind hdefinition hid
  rw [hplain] at hsymbol
  rcases Ty.reference?_eq_some.mp hreference with ⟨rfl, rfl⟩ | rfl
  · simp only [renderWithin, ho.typeArguments]
    exact hsymbol
  · exact hsymbol

/-! ## Parts of types -/

/-- The types that are rendered for a type. -/
inductive Ty.Part : Ty → Ty → Prop
  | argument {id : Nat} {args : List Ty} {arg : Ty} : arg ∈ args → Part arg (.nominal id args)
  | element {element : Ty} : Part element (.array element)
  | component {elements : List Ty} {element : Ty} :
      element ∈ elements → Part element (.tuple elements)
  | alternative {members : List Ty} {member : Ty} :
      member ∈ members → Part member (.union members)
  | conjunct {members : List Ty} {member : Ty} :
      member ∈ members → Part member (.intersection members)
  | result (sig : Signature) : Part sig.result (.function sig)
  | param (sig : Signature) {p : Param} : p ∈ sig.params → Part p.type (.function sig)
  | call {sig : Signature} {name : Option String} {isStatic : Bool} {span : Span} :
      Part (.function sig) (.shape [⟨name, .call sig, isStatic, span⟩])

lemma Ty.Part.symbols {part ty : Ty} (h : part.Part ty) : part.symbols ⊆ ty.symbols := by
  have hall : ∀ {tys : List Ty}, part ∈ tys → part.symbols ⊆ Ty.symbolsAll tys :=
    fun hpart _ hid => Ty.mem_symbolsAll.mpr ⟨part, hpart, hid⟩
  cases h with
  | argument harg => exact fun _ hid => List.mem_cons_of_mem _ (hall harg hid)
  | element => exact List.Subset.refl _
  | component helement => exact hall helement
  | alternative hmember => exact hall hmember
  | conjunct hmember => exact hall hmember
  | result sig =>
      obtain ⟨typeParams, params, result⟩ := sig
      exact fun _ hid => List.mem_append_right _ hid
  | @param sig p hp =>
      obtain ⟨typeParams, params, result⟩ := sig
      obtain ⟨name, type, optional, rest⟩ := p
      refine fun _ hid => List.mem_append_left _ ?_
      rw [Param.symbolsAll_eq]
      exact List.mem_flatMap.mpr ⟨_, hp, hid⟩
  | call => exact fun _ hid => List.mem_append_left _ hid

/-- A type in which references and their arguments share no alias with parameters. -/
def Ty.Unshared (table : SymbolTable) (ty : Ty) : Prop :=
  ∀ id args, ReflTransGen Ty.Part (.nominal id args) ty →
    ∀ other ∈ Ty.symbolsAll args, table.Unshared id other

lemma Ty.Unshared.part {part ty : Ty} (h : ty.Unshared table) (hpart : part.Part ty) :
    part.Unshared table :=
  fun id args hwithin => h id args (hwithin.tail hpart)

lemma Ty.symbols_within {part ty : Ty} (h : ReflTransGen Ty.Part part ty) :
    part.symbols ⊆ ty.symbols := by
  induction h with
  | refl => exact List.Subset.refl _
  | tail _ hpart ih => exact List.Subset.trans ih hpart.symbols

/-- What is asked of a type is asked of its parts, and of a reference itself. -/
lemma Ty.Unshared.ofParts {ty : Ty} (hparts : ∀ part : Ty, part.Part ty → part.Unshared table)
    (hself : ∀ id args, ty = .nominal id args →
      ∀ other ∈ Ty.symbolsAll args, table.Unshared id other) : ty.Unshared table := by
  intro id args hwithin
  rcases hwithin.cases_tail with heq | ⟨part, hwithin, hpart⟩
  · exact hself id args heq
  · exact hparts part hpart id args hwithin

/-- A type without symbols. -/
lemma Ty.Unshared.ofSymbols {ty : Ty} (h : ty.symbols = []) : ty.Unshared table := by
  intro id args hwithin
  have hid : id ∈ ty.symbols := Ty.symbols_within hwithin List.mem_cons_self
  rw [h] at hid
  cases hid

/-- A reference without arguments. -/
lemma Ty.Unshared.ofReference {ty : Ty} {id : Nat} (h : ty.reference? = some (id, [])) :
    ty.Unshared table := by
  rcases Ty.reference?_eq_some.mp h with ⟨rfl, -⟩ | rfl
  · exact .ofParts (fun part hpart => by cases hpart) fun id args hself => by cases hself
  · refine .ofParts (fun part hpart => ?_) fun id args hself other hother => ?_
    · cases hpart with
      | argument harg => cases harg
    · cases hself
      cases hother

lemma Ty.substituteAll_eq (b : Bindings) (tys : List Ty) :
    Ty.substituteAll b tys = tys.map (Ty.substitute b) := by
  induction tys with
  | nil => rfl
  | cons ty tys ih => rw [Ty.substituteAll, ih, List.map_cons]

lemma Param.substituteAll_eq (b : Bindings) (ps : List Param) :
    Param.substituteAll b ps = ps.map (Param.substitute b) := by
  induction ps with
  | nil => rfl
  | cons p ps ih => rw [Param.substituteAll, ih, List.map_cons]

/-- The parts of a type in which parameters were replaced: parts of the type, and of what was put
in. -/
lemma Ty.part_substitute {b : Bindings} {part ty : Ty} (h : part.Part (ty.substitute b)) :
    (∃ (other : Ty) (b' : Bindings), other.Part ty ∧ b' ⊆ b ∧ part = other.substitute b') ∨
      ∃ entry ∈ b, ty.substitute b = entry.2 := by
  have hall : ∀ {tys : List Ty}, part ∈ Ty.substituteAll b tys →
      ∃ other ∈ tys, part = other.substitute b := by
    intro tys hpart
    rw [Ty.substituteAll_eq] at hpart
    obtain ⟨other, hother, rfl⟩ := List.mem_map.mp hpart
    exact ⟨other, hother, rfl⟩
  cases ty with
  | nominal id args =>
      cases h with
      | argument harg =>
          obtain ⟨other, hother, rfl⟩ := hall harg
          exact Or.inl ⟨other, b, .argument hother, List.Subset.refl _, rfl⟩
  | array element =>
      cases h with
      | element => exact Or.inl ⟨element, b, .element, List.Subset.refl _, rfl⟩
  | tuple elements =>
      cases h with
      | component helement =>
          obtain ⟨other, hother, rfl⟩ := hall helement
          exact Or.inl ⟨other, b, .component hother, List.Subset.refl _, rfl⟩
  | union members =>
      cases h with
      | alternative hmember =>
          obtain ⟨other, hother, rfl⟩ := hall hmember
          exact Or.inl ⟨other, b, .alternative hother, List.Subset.refl _, rfl⟩
  | intersection members =>
      cases h with
      | conjunct hmember =>
          obtain ⟨other, hother, rfl⟩ := hall hmember
          exact Or.inl ⟨other, b, .conjunct hother, List.Subset.refl _, rfl⟩
  | function sig =>
      obtain ⟨typeParams, params, result⟩ := sig
      have hhiding : b.hiding typeParams ⊆ b := fun _ => Bindings.mem_of_mem_hiding
      cases h with
      | result =>
          exact Or.inl ⟨result, _, .result ⟨typeParams, params, result⟩, hhiding, rfl⟩
      | param sig hp =>
          have hmem := hp
          rw [show (Signature.substitute b ⟨typeParams, params, result⟩).params =
            params.map (Param.substitute (b.hiding typeParams)) from Param.substituteAll_eq _ _]
            at hmem
          obtain ⟨⟨name, type, optional, rest⟩, hp', rfl⟩ := List.mem_map.mp hmem
          exact Or.inl ⟨type, _, .param ⟨typeParams, params, result⟩ hp', hhiding, rfl⟩
  | shape members =>
      rcases members with _ | ⟨⟨name, kind, isStatic, span⟩, _ | ⟨second, rest⟩⟩
      · cases h
      · cases kind with
        | call sig =>
            cases h with
            | call => exact Or.inl ⟨.function sig, b, .call, List.Subset.refl _, rfl⟩
        | _ => cases h
      · cases kind <;> cases h
  | param name =>
      cases hlookup : b.lookup name with
      | none =>
          simp only [Ty.substitute, hlookup, Option.getD_none] at h
          cases h
      | some bound =>
          refine Or.inr ⟨_, Bindings.mem_of_lookup hlookup, ?_⟩
          simp only [Ty.substitute, hlookup, Option.getD_some]
  | primitive | «alias» | literal | raw => cases h

/-- What is in a type in which parameters were replaced is in the type, with parameters replaced, or
in what was put in. -/
lemma Ty.within_substitute {part whole : Ty} (h : ReflTransGen Ty.Part part whole) :
    ∀ {ty : Ty} {b : Bindings}, whole = ty.substitute b →
      (∃ (other : Ty) (b' : Bindings), ReflTransGen Ty.Part other ty ∧ b' ⊆ b ∧
        part = other.substitute b') ∨ ∃ entry ∈ b, ReflTransGen Ty.Part part entry.2 := by
  induction h with
  | refl => exact fun {ty b} hwhole => Or.inl ⟨ty, b, .refl, List.Subset.refl _, hwhole⟩
  | tail hwithin hpart ih =>
      rintro ty b rfl
      rcases Ty.part_substitute hpart with ⟨other, b', hother, hsub, rfl⟩ | ⟨entry, hentry, heq⟩
      · rcases ih rfl with ⟨inner, b'', hinner, hsub', rfl⟩ | ⟨entry, hentry, hin⟩
        · exact Or.inl ⟨inner, b'', hinner.tail hother, List.Subset.trans hsub' hsub, rfl⟩
        · exact Or.inr ⟨entry, hsub hentry, hin⟩
      · exact Or.inr ⟨entry, hentry, heq ▸ hwithin.tail hpart⟩

/-- Replacing parameters by types that share no alias with what is there. -/
lemma Ty.Unshared.substitute {ty : Ty} {b : Bindings} (h : ty.Unshared table)
    (hb : ∀ entry ∈ b, entry.2.Unshared table)
    (hapart : ∀ id ∈ ty.symbols, ∀ other, b.Mentions other → table.Unshared id other) :
    (ty.substitute b).Unshared table := by
  intro id args hwithin other hother
  rcases Ty.within_substitute hwithin rfl with ⟨inner, b', hinner, hsub, heq⟩ | ⟨entry, hentry, hin⟩
  · cases inner with
    | nominal id' args' =>
        obtain ⟨rfl, rfl⟩ := Ty.nominal.inj heq
        rcases Ty.mem_symbolsAll_substitute args' hother with hother | ⟨entry, hentry, hmem⟩
        · exact h id args' hinner other hother
        · exact hapart id (Ty.symbols_within hinner List.mem_cons_self) other
            ⟨entry, hsub hentry, hmem⟩
    | param name =>
        cases hlookup : b'.lookup name with
        | none =>
            simp only [Ty.substitute, hlookup, Option.getD_none] at heq
            cases heq
        | some bound =>
            simp only [Ty.substitute, hlookup, Option.getD_some] at heq
            subst heq
            exact hb _ (hsub (Bindings.mem_of_lookup hlookup)) id args .refl other hother
    | _ => cases heq
  · exact hb entry hentry id args hin other hother

/-! ## Safe types -/

/-- **Definitions that are expanded without coming up again.** -/
structure SymbolTable.Regular (table : SymbolTable) : Prop where
  acyclic : ∀ id, ¬ TransGen table.Uses id id
  unshared : ∀ id symbol definition, table.get? id = some symbol → symbol.kind = .alias →
    symbol.aliased = some definition → definition.Unshared table

/-- Definitions that mention only what was declared before do not go round in a circle. -/
lemma SymbolTable.acyclic_of_lt (h : ∀ {id other}, table.Uses id other → other < id) (id : Nat) :
    ¬ TransGen table.Uses id id := by
  have hlt : ∀ other, TransGen table.Uses id other → other < id := by
    intro other hreach
    induction hreach with
    | single huses => exact h huses
    | tail _ huses ih => exact Nat.lt_trans (h huses) ih
  exact fun hcycle => Nat.lt_irrefl id (hlt id hcycle)

/-- **A type in which nothing comes up that is being expanded.**  What it mentions is below the
alias that is being expanded, or came in through the arguments of that alias. -/
structure Ty.Safe (table : SymbolTable) (expanding : List Nat) (ty : Ty) : Prop where
  unshared : ty.Unshared table
  apart : ∀ id ∈ expanding, ∀ other ∈ ty.symbols,
    TransGen table.Uses id other ∨ table.IsGeneric id ∧ table.Unshared id other

namespace Ty.Safe

variable {ty body : Ty} {id : Nat}

lemma ofUnshared (h : ty.Unshared table) : ty.Safe table [] :=
  ⟨h, fun _ hid => (List.not_mem_nil hid).elim⟩

lemma part {part : Ty} (h : ty.Safe table expanding) (hpart : part.Part ty) :
    part.Safe table expanding :=
  ⟨h.unshared.part hpart, fun id hid other hother => h.apart id hid other (hpart.symbols hother)⟩

lemma tail (h : ty.Safe table (id :: expanding)) : ty.Safe table expanding :=
  ⟨h.unshared, fun other hother => h.apart other (List.mem_cons_of_mem _ hother)⟩

lemma any : Ty.any.Safe table expanding :=
  ⟨.ofSymbols rfl, fun _ _ _ hother => by cases hother⟩

/-- A reference without arguments is safe where nothing is being expanded. -/
lemma ofAliasBody? {body : Ty} {id : Nat} (h : aliasBody? table [] ty = some (id, body)) :
    ty.Safe table [] := by
  obtain ⟨rfl | rfl, -⟩ := aliasBody?_eq_some.mp h <;> exact ofUnshared (.ofReference rfl)

/-- A union of safe types is safe. -/
lemma union {members : List Ty} (h : ∀ member ∈ members, member.Safe table expanding) :
    Ty.Safe table expanding (.union members) := by
  refine ⟨.ofParts (fun part hpart => ?_) (fun id args hself => by cases hself),
    fun outer houter other hother => ?_⟩
  · cases hpart with
    | alternative hmember => exact (h part hmember).unshared
  · obtain ⟨member, hmember, hother⟩ := Ty.mem_symbolsAll.mp hother
    exact (h member hmember).apart outer houter other hother

variable (htable : table.Regular)
include htable

/-- Nothing that is being expanded is mentioned. -/
lemma not_mem (h : ty.Safe table expanding) (hid : id ∈ ty.symbols) : id ∉ expanding := by
  intro hexpanding
  rcases h.apart id hexpanding id hid with huses | ⟨hgeneric, hunshared⟩
  · exact htable.acyclic id huses
  · exact hunshared id .refl .refl hgeneric

/-- What a reference stands for shares no alias, either. -/
lemma unshared_expand (h : ty.Unshared table) (hexpands : table.Expands ty id body) :
    body.Unshared table := by
  obtain ⟨args, symbol, definition, hty, hget, hkind, hdefinition, rfl⟩ := hexpands
  have hunshared := htable.unshared id symbol definition hget hkind hdefinition
  split_ifs
  · exact hunshared
  · have hargs : ∀ arg ∈ args, arg.Part ty ∧ ty = .nominal id args := by
      intro arg harg
      rcases Ty.reference?_eq_some.mp hty with ⟨-, rfl⟩ | rfl
      · cases harg
      · exact ⟨.argument harg, rfl⟩
    refine hunshared.substitute (fun entry hentry => ?_) fun other hother inner hinner => ?_
    · rcases snd_of_mem_aliasBindings hentry with harg | hany
      · exact h.part (hargs _ harg).1
      · exact hany ▸ .ofSymbols rfl
    · have hinner := mem_of_aliasBindings hinner
      obtain ⟨arg, harg, -⟩ := Ty.mem_symbolsAll.mp hinner
      obtain ⟨-, rfl⟩ := hargs arg harg
      exact (h id args .refl inner hinner).left
        (.single ⟨symbol, definition, hget, hkind, hdefinition, hother⟩)

/-- **A safe type stays safe when a reference is expanded.** -/
lemma expand (h : ty.Safe table expanding) (hexpands : table.Expands ty id body) :
    body.Safe table (id :: expanding) := by
  refine ⟨unshared_expand htable h.unshared hexpands, fun outer houter other hother => ?_⟩
  have hid : id ∈ ty.symbols := hexpands.mem_symbols
  rcases hexpands.symbols hother with huses | ⟨hgeneric, args, rfl, hmem⟩
  · rcases List.mem_cons.mp houter with rfl | houter
    · exact Or.inl (.single huses)
    · exact (h.apart outer houter id hid).imp (fun h => h.tail huses)
        (And.imp_right fun h => h.right (.single huses))
  · rcases List.mem_cons.mp houter with rfl | houter
    · exact Or.inr ⟨hgeneric, h.unshared _ args .refl other hmem⟩
    · exact h.apart outer houter other (List.mem_cons_of_mem _ hmem)

end Ty.Safe

/-! ## Looking through aliases in safe types -/

section

variable (htable : table.Regular) {ty : Ty}
include htable

lemma aliasBody?_of_safe (h : ty.Safe table expanding) :
    aliasBody? table expanding ty = aliasBody? table [] ty := by
  ext ⟨id, body⟩
  rw [aliasBody?_eq_some, aliasBody?_eq_some]
  constructor
  · rintro ⟨hty, -, hbody⟩
    exact ⟨hty, List.not_mem_nil, hbody⟩
  · rintro ⟨hty, -, hbody⟩
    refine ⟨hty, h.not_mem htable ?_, hbody⟩
    rcases hty with rfl | rfl <;> exact List.mem_cons_self

/-- Looking through an alias that is safe leads to a safe type. -/
lemma Ty.Safe.aliasBody? {body : Ty} {id : Nat} (h : ty.Safe table expanding)
    (hbody : aliasBody? table expanding ty = some (id, body)) : body.Safe table expanding :=
  (h.expand htable (expands_of_aliasBody? hbody)).tail

/-- **What a safe type counts as** does not depend on what is being expanded. -/
lemma components_of_safe (steps : Nat) {ty : Ty} (h : ty.Safe table expanding) :
    components table expanding steps ty = components table [] steps ty :=
  components_congr (P := Ty.Safe table expanding) (fun _ h => aliasBody?_of_safe htable h)
    (fun _ _ _ hbody h => h.aliasBody? htable hbody)
    (fun _ h _ hmember => h.part (.alternative hmember))
    (fun _ h _ hmember => h.part (.conjunct hmember)) steps h

/-- The components of a safe type are safe. -/
lemma Ty.Safe.components {steps : Nat} {parts : List Ty} (h : ty.Safe table expanding)
    (hparts : components table expanding steps ty = some parts) :
    ∀ part ∈ parts, part.Safe table expanding :=
  components_keep (fun _ _ _ hbody h => h.aliasBody? htable hbody)
    (fun _ h _ hmember => h.part (.alternative hmember))
    (fun _ h _ hmember => h.part (.conjunct hmember)) hparts h

end

/-! ## Chains that do not close -/

lemma followAliases_of_none {ty : Ty} (h : aliasBody? table [] ty = none) :
    followAliases table [] ty = ty :=
  (follows_followAliases table [] ty).unique (.stop h)

section

variable (hacyclic : ∀ id, ¬ TransGen table.Uses id id) {ty : Ty}
include hacyclic

/-- What was seen on the way to a type does not matter if nothing leads back to it. -/
lemma follows_of_not_mem {seen : List Nat} {last : Ty} (h : Follows table [] seen ty last) :
    ∀ {others : List Nat}, others ⊆ seen →
      (∀ id ∈ seen, ∀ other ∈ ty.symbols, ¬ ReflTransGen table.Uses other id) →
        Follows table [] others ty last := by
  induction h with
  | stop hnone => exact fun _ _ => .stop hnone
  | closed hsome hid =>
      exact fun _ hback => absurd .refl (hback _ hid _ (expands_of_aliasBody? hsome).mem_symbols)
  | @step seen ty body last id hsome hid hrest ih =>
      intro others hsub hback
      have hexpands := expands_of_aliasBody? hsome
      refine .step hsome (fun hm => hid (hsub hm)) (ih (List.cons_subset_cons id hsub) ?_)
      intro before hbefore other hother hreach
      rcases List.mem_cons.mp hbefore with rfl | hbefore
      · exact hacyclic before (.head' (uses_of_aliasBody? hsome hother) hreach)
      · exact hback before hbefore id hexpands.mem_symbols
          (.head (uses_of_aliasBody? hsome hother) hreach)

/-- **An alias that is looked through** leads where its definition leads. -/
lemma followAliases_aliasBody? {body : Ty} {id : Nat}
    (h : aliasBody? table [] ty = some (id, body)) :
    followAliases table [] ty = followAliases table [] body := by
  have hfollows := follows_followAliases table [] ty
  generalize followAliases table [] ty = last at hfollows ⊢
  cases hfollows with
  | stop hnone => simp [hnone] at h
  | closed _ hid => cases hid
  | @step _ _ body' _ id' hsome _ hrest =>
      obtain ⟨rfl, rfl⟩ := Prod.mk.inj (Option.some.inj (hsome.symm.trans h))
      refine (follows_of_not_mem hacyclic hrest (List.nil_subset _) ?_).unique
        (follows_followAliases table [] body')
      intro before hbefore other hother hreach
      obtain rfl := List.mem_singleton.mp hbefore
      exact hacyclic before (.head' (uses_of_aliasBody? h hother) hreach)

end

end Interop
