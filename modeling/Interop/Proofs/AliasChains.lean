import Interop.Proofs.Following
import Mathlib.Logic.Relation

/-!
# Where chains of aliases lead

An alias without parameters may stand for another one, and a chain of such aliases may close.  No
chain is followed for ever: it ends at the first type that is no such alias, or where it meets an
alias for the second time, and there the aliases form a cycle.

* `Opens` — a reference to an alias that may be looked through, and what the alias stands for.
* `Leads` — one type is looked through to another.
* **`followAliases_arrives`** — where the chain that starts at a type is left.
-/

namespace Interop

/-- A type is a reference without arguments to an alias that may be looked through: the alias is in
the table, takes no parameters, has a body and is not being expanded. -/
structure Opens (table : SymbolTable) (expanding : List Nat) (ty : Ty) (id : Nat) (body : Ty) :
    Prop where
  reference : ty = .alias id ∨ ty = .nominal id []
  idle : id ∉ expanding
  symbol : ∃ symbol, table.get? id = some symbol ∧ symbol.kind = .alias ∧
    symbol.typeParams = [] ∧ symbol.aliased = some body

/-- One step of a chain of aliases. -/
def Leads (table : SymbolTable) (expanding : List Nat) (ty body : Ty) : Prop :=
  ∃ id, Opens table expanding ty id body

variable {table : SymbolTable} {expanding seen : List Nat} {ty body last : Ty} {id : Nat}

lemma opens_iff :
    Opens table expanding ty id body ↔ aliasBody? table expanding ty = some (id, body) := by
  rw [aliasBody?_eq_some]
  exact ⟨fun h => ⟨h.reference, h.idle, h.symbol⟩, fun ⟨href, hidle, hsymbol⟩ =>
    ⟨href, hidle, hsymbol⟩⟩

/-- What is arrived at is on the chain. -/
lemma Follows.leads (h : Follows table expanding seen ty last) :
    Relation.ReflTransGen (Leads table expanding) ty last := by
  induction h with
  | stop => exact .refl
  | closed => exact .refl
  | step hsome _ _ ih => exact .head ⟨_, opens_iff.mpr hsome⟩ ih

/-- **A chain closes in a cycle.**  Following what was arrived at leads back to it, so an alias that
is left there is on a cycle. -/
lemma Follows.cycle (h : Follows table expanding [] last last)
    (hopens : Opens table expanding last id body) :
    Relation.TransGen (Leads table expanding) last last := by
  rw [opens_iff] at hopens
  cases h with
  | stop hnone => simp [hnone] at hopens
  | closed _ hid => cases hid
  | step hsome _ hrest => exact .head' ⟨_, opens_iff.mpr hsome⟩ hrest.leads

/-- **Looking through aliases**, for any table, also one with cycles of aliases, and any aliases
that are being expanded.  Following the chain alias by alias has one end.  Following it again from
there changes nothing.  The end is the type itself or what some alias on the chain stands for.  If
it is still a reference to an alias that may be looked through, then it is on a cycle of such
references. -/
theorem followAliases_arrives (table : SymbolTable) (expanding : List Nat) (ty : Ty) :
    let last := followAliases table expanding ty
    (∀ other, Follows table expanding [] ty other ↔ other = last) ∧
    followAliases table expanding last = last ∧
    (last = ty ∨ ∃ previous id, Relation.ReflTransGen (Leads table expanding) ty previous ∧
      Opens table expanding previous id last) ∧
    ∀ id body, Opens table expanding last id body →
      Relation.TransGen (Leads table expanding) last last := by
  intro last
  have hfollows : Follows table expanding [] ty last := follows_followAliases table expanding ty
  refine ⟨fun other => ⟨fun hother => hother.unique hfollows, fun he => he ▸ hfollows⟩,
    followAliases_idem table expanding ty, ?_, fun id body hopens => ?_⟩
  · rcases hfollows.leads.cases_tail with he | ⟨previous, hchain, id, hopens⟩
    · exact .inl he
    · exact .inr ⟨previous, id, hchain, hopens⟩
  · exact (hfollows.again .start).cycle hopens

/-- Of three aliases, the first leads into a cycle of the other two.  Looking through the first one
stops at the second one, when that is met again. -/
theorem followAliases_arrives_cycle :
    let named (name : String) (body : Nat) : Symbol :=
      { name, kind := .alias, file := 0, path := ⟨["m", name], .type⟩,
        aliased := some (.nominal body []) }
    let table : SymbolTable := ⟨#[named "A" 1, named "B" 2, named "C" 1]⟩
    let last := followAliases table [] (.alias 0)
    last = .nominal 1 [] ∧ Opens table [] last 1 (.nominal 2 []) ∧
      Relation.TransGen (Leads table []) last last := by
  intro named table last
  have hopens : Opens table [] last 1 (.nominal 2 []) :=
    ⟨.inr rfl, List.not_mem_nil, named "B" 2, rfl, rfl, rfl, rfl⟩
  exact ⟨rfl, hopens, (followAliases_arrives table [] (.alias 0)).2.2.2 1 _ hopens⟩

end Interop
