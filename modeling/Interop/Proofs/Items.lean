import Interop.Proofs.Allocation
import Interop.Proofs.Outline
import Interop.Proofs.Walk

/-!
# What is written for a declaration

Writing the declarations of a file follows the walk through its symbols.  If it succeeds, each
symbol has left what its kind asks for: a class, interface or enum one class, a function one
function, since all of its overloads are merged, and a variable a getter and perhaps a setter.  A
stub stands in the place of what has no legal name.

* `Work.Ensures` — what holds of the result of a computation that succeeds.
* `Symbol.Emits` — what is written for a symbol of a name.
* `Session.Relates` — what is written for a symbol has a relation to it.
* **`fileItems_lists`** — the declarations of a file are those of the symbols on the walk.
-/

namespace Interop

open Work

/-! ## Results of computations that succeed -/

namespace Work

variable {α β : Type} {base : Session} {may : Failure → Prop}

/-- A computation whose result has a property, if there is one, in sessions with the names of a
given one. -/
def Ensures (base : Session) (w : Work α) (Q : α → Prop) : Prop :=
  ∀ s : Session, base.SameNames s →
    base.SameNames (w.exec s).2 ∧ ∀ a, (w.exec s).1 = .ok a → Q a

namespace Ensures

lemma of_traced (hbase : base.Settled may) {w : Work α} (hw : w.Traced may base.table) :
    w.Ensures base fun _ => True := by
  intro s hs
  exact ⟨hs.trans (.exec (hs.table ▸ hw) (hs.settled hbase)), fun _ _ => trivial⟩

lemma pure {Q : α → Prop} {a : α} (ha : Q a) : (Pure.pure a : Work α).Ensures base Q := by
  intro s hs
  refine ⟨hs, fun b hb => ?_⟩
  obtain rfl := Except.ok.inj hb
  exact ha

lemma throw {Q : α → Prop} (failure : Failure) :
    (MonadExcept.throw failure : Work α).Ensures base Q :=
  fun _ hs => ⟨hs, fun _ h => by cases h⟩

lemma bind {w : Work α} {k : α → Work β} {P : α → Prop} {Q : β → Prop} (hw : w.Ensures base P)
    (hk : ∀ a, P a → (k a).Ensures base Q) : (w >>= k).Ensures base Q := by
  intro s hs
  obtain ⟨hsame, hresult⟩ := hw s hs
  rw [exec_bind]
  rcases hrun : w.exec s with ⟨failure | a, t⟩
  · rw [hrun] at hsame
    exact ⟨hsame, fun _ h => by cases h⟩
  · rw [hrun] at hsame hresult
    exact hk a (hresult a rfl) t hsame

lemma table_bind {k : SymbolTable → Work α} {Q : α → Prop}
    (hk : (k base.table).Ensures base Q) : (Work.table >>= k).Ensures base Q := by
  intro s hs
  rw [exec_table_bind, hs.table]
  exact hk s hs

lemma pointAt (span : Span) :
    (modify (·.pointAt span) : Work Unit).Ensures base fun _ => True :=
  fun _ hs => ⟨hs.trans ⟨rfl, rfl, rfl, rfl⟩, fun _ _ => trivial⟩

lemma inScope {w : Work α} {Q : α → Prop} (names : List String) (hw : w.Ensures base Q) :
    (Work.inScope names w).Ensures base Q := by
  intro s hs
  obtain ⟨hsame, hresult⟩ := hw (s.pushScope names) (hs.trans ⟨rfl, rfl, rfl, rfl⟩)
  exact ⟨hsame.trans ⟨rfl, rfl, rfl, rfl⟩, hresult⟩

lemma weaken {w : Work α} {P Q : α → Prop} (hw : w.Ensures base P) (h : ∀ a, P a → Q a) :
    w.Ensures base Q :=
  fun s hs => ⟨(hw s hs).1, fun a ha => h a ((hw s hs).2 a ha)⟩

lemma mapM {f : α → Work β} {Q : α → β → Prop} : ∀ {xs : List α},
    (∀ x ∈ xs, (f x).Ensures base (Q x)) → (xs.mapM f).Ensures base (List.Forall₂ Q xs)
  | [], _ => by
      rw [List.mapM_nil]
      exact pure .nil
  | x :: xs, h => by
      rw [List.mapM_cons]
      refine bind (h x List.mem_cons_self) fun b hb => ?_
      refine bind (mapM fun y hy => h y (List.mem_cons_of_mem _ hy)) fun bs hbs => ?_
      exact pure (.cons hb hbs)

lemma get_bind {k : Session → Work α} {Q : α → Prop}
    (hk : ∀ s, base.SameNames s → (k s).Ensures base Q) : (get >>= k).Ensures base Q :=
  fun s hs => hk s hs s hs

lemma expanding {w : Work α} {Q : α → Prop} (id : Nat) (hw : w.Ensures base Q) :
    (Work.expanding id w).Ensures base Q := by
  intro s hs
  obtain ⟨hsame, hresult⟩ := hw (s.pushAlias id) (hs.trans ⟨rfl, rfl, rfl, rfl⟩)
  exact ⟨hsame.trans ⟨rfl, rfl, rfl, rfl⟩, hresult⟩

/-- What holds of all that is computed for a list. -/
lemma forall_mapM {f : α → Work β} {Q : β → Prop} : ∀ {xs : List α},
    (∀ x ∈ xs, (f x).Ensures base Q) → (xs.mapM f).Ensures base fun ys => ∀ y ∈ ys, Q y
  | [], _ => by
      rw [List.mapM_nil]
      exact pure fun _ h => by cases h
  | x :: xs, h => by
      rw [List.mapM_cons]
      refine bind (h x List.mem_cons_self) fun y hy => ?_
      refine bind (forall_mapM fun z hz => h z (List.mem_cons_of_mem _ hz)) fun ys hys => ?_
      exact pure (List.forall_mem_cons.mpr ⟨hy, hys⟩)

/-- An invariant of what is gathered. -/
lemma foldlM {f : β → α → Work β} {P : β → Prop} : ∀ {xs : List α} {b : β}, P b →
    (∀ b, P b → ∀ x ∈ xs, (f b x).Ensures base P) → (xs.foldlM f b).Ensures base P
  | [], _, hb, _ => pure hb
  | x :: xs, b, hb, h => by
      rw [List.foldlM_cons]
      refine bind (h b hb x List.mem_cons_self) fun c hc => ?_
      exact foldlM hc fun d hd y hy => h d hd y (List.mem_cons_of_mem _ hy)

/-- What is kept of a list is part of it. -/
lemma filterM {f : α → Work Bool} {xs : List α}
    (h : ∀ x ∈ xs, (f x).Ensures base fun _ => True) :
    (xs.filterM f).Ensures base (· ⊆ xs) := by
  rw [filterM_eq_foldlM]
  refine bind (foldlM (P := (· ⊆ xs)) (List.nil_subset xs) fun kept hkept x hx =>
    bind (h x hx) fun keeps _ => pure ?_) fun kept hkept =>
      pure fun y hy => hkept (List.mem_reverse.mp hy)
  cases keeps with
  | false => exact hkept
  | true => exact List.cons_subset.mpr ⟨hx, hkept⟩

lemma mapM_singleton {f : α → Work β} {Q : β → Prop} {x : α} (h : (f x).Ensures base Q) :
    ([x].mapM f).Ensures base fun ys => ∃ y, ys = [y] ∧ Q y := by
  rw [List.mapM_cons]
  refine bind h fun y hy => ?_
  rw [List.mapM_nil]
  exact pure ⟨y, rfl, hy⟩

end Ensures

end Work

/-! ## Names -/

/-- The name of a symbol in the output, once names are given; `none` for one that cannot be
written. -/
def Session.flatName (s : Session) (symbol : Symbol) : Option String :=
  match symbol.externalName with
  | some target => some target
  | none =>
    if symbol.hasLegalName then (s.registry.find? symbol.path).map (·.name) else none

section

variable {base : Session} {may : Failure → Prop} (hbase : base.Settled may)
include hbase

lemma nameOf_ensures {id : Nat} {symbol : Symbol} (hid : base.table.get? id = some symbol)
    (hkind : symbol.kind.isEmitted = true) :
    (nameOf id).Ensures base (· = base.flatName symbol) := by
  intro s hs
  have hsettled := hs.settled hbase
  have hid' : s.table.get? id = some symbol := by rw [hs.table, hid]
  refine ⟨hs.trans (.exec (.nameOf hid' hkind) hsettled), fun name hname => ?_⟩
  unfold Session.flatName
  cases hexternal : symbol.externalName with
  | some target =>
      rw [exec_nameOf_external hid' hexternal] at hname
      exact (Except.ok.inj hname).symm
  | none =>
      cases hfile : s.libraryOf? symbol.file with
      | none =>
          rw [exec_nameOf_foreign hid' hexternal hfile] at hname
          cases hname
      | some library =>
          cases hlegal : symbol.hasLegalName with
          | false =>
              rw [exec_nameOf_illegal hid' hexternal hfile hlegal] at hname
              simpa [hlegal] using (Except.ok.inj hname).symm
          | true =>
              obtain ⟨⟨lib, hlib⟩, record, hrecord⟩ :=
                hsettled.named id symbol library hid' hkind hexternal hlegal hfile
              rw [exec_nameOf hid' hexternal hfile hlegal hlib hrecord] at hname
              rw [hs.registry] at hrecord
              simpa [hlegal, hrecord] using (Except.ok.inj hname).symm

end

/-! ## What is written for a symbol -/

/-- **What is written for a symbol** that has a name, or none. -/
def Symbol.Emits (s : Symbol) (name : Option String) (items : List Item) : Prop :=
  match s.kind with
  | .klass | .interface | .enum => ∃ item, items = [item] ∧ match name with
    | some name =>
        item.decl.kind = .klass ∧ ∃ heritage, item.decl.header = classHeader s name heritage
    | none => item.decl.kind = .stub ∧ item.members = []
  | .function => ∃ decl, items = [⟨decl, []⟩] ∧ match name with
    | some name => decl.kind = .function ∧ ∃ sig, decl.header = functionHeader "" name sig
    | none => decl.kind = .stub
  | .variable => ∃ type readonly text, s.variableType? = some (type, readonly) ∧ match name with
    | some name => ∃ tag, items = ⟨.ofFunction (getterHeader "" text name) tag [], []⟩ ::
        if readonly then [] else [⟨.ofFunction (setterHeader "" text name) tag [], []⟩]
    | none => items = [⟨.ofStub (getterHeader "" text s.name), []⟩]
  | .alias | .typeParameter | .nameSpace => items = []

/-- All members of a function are call signatures. -/
def Symbol.OnlyCalls (s : Symbol) : Prop :=
  ∀ m ∈ s.members, ∃ sig, m.kind = .call sig

/-! ### Overloads of a function -/

/-- Call signatures are all in one group. -/
lemma groupMembers_calls {m : Member} {rest : List Member}
    (h : ∀ n ∈ m :: rest, ∃ sig, n.kind = .call sig) : groupMembers (m :: rest) = [m :: rest] := by
  have hkey : ∀ n ∈ m :: rest, OverloadKey.of? n = some .call := by
    intro n hn
    obtain ⟨sig, hsig⟩ := h n hn
    simp [OverloadKey.of?, hsig]
  have hfold : ∀ more before : List Member, (∀ n ∈ more, OverloadKey.of? n = some .call) →
      more.foldl (fun groups n => addToGroups n groups) [m :: before] = [m :: before ++ more] := by
    intro more
    induction more with
    | nil => intro before _; simp
    | cons n more ih =>
        intro before hmore
        have hjoins : joins n (m :: before) = true := by
          simp [joins, hmore n List.mem_cons_self, hkey m List.mem_cons_self]
        rw [List.foldl_cons, addToGroups, if_pos hjoins, List.cons_append,
          ih _ fun k hk => hmore k (List.mem_cons_of_mem _ hk)]
        simp
  exact hfold rest [] fun n hn => hkey n (List.mem_cons_of_mem _ hn)

section

variable {base : Session} {may : Failure → Prop} (hbase : base.Settled may)
include hbase

/-- What call signatures are merged into has a signature. -/
lemma mergeGroup_ensures {m : Member} {rest : List Member}
    (h : ∀ n ∈ m :: rest, ∃ sig, n.kind = .call sig) :
    (mergeGroup (m :: rest)).Ensures base
      fun group => ∃ sig, group.effective.signature? = some sig := by
  obtain ⟨sig, hsig⟩ := h m List.mem_cons_self
  simp only [mergeGroup]
  split
  · refine .bind (.pointAt _) fun _ _ => ?_
    refine .bind (.of_traced hbase (mergeSignatures_traced _ _)) fun merged _ => ?_
    rw [hsig]
    refine .table_bind (.pure ⟨merged, ?_⟩)
    rfl
  · refine .pure ⟨sig, ?_⟩
    simp [MemberGroup.effective, Member.signature?, hsig, MemberKind.signature?]

/-- One merged function is one declaration. -/
lemma functionItem_ensures (id : Nat) (symbol : Symbol) (name : Option String) {group : MemberGroup}
    (hgroup : ∃ sig, group.effective.signature? = some sig) :
    (functionItem id symbol name group).Ensures base fun items => ∃ decl, items = [⟨decl, []⟩] ∧
      match name with
      | some name => decl.kind = .function ∧ ∃ sig, decl.header = functionHeader "" name sig
      | none => decl.kind = .stub := by
  obtain ⟨sig, hsig⟩ := hgroup
  unfold functionItem
  rw [hsig]
  refine .bind (.pointAt _) fun _ _ => ?_
  refine .bind (.of_traced hbase (SignatureText.of_traced sig)) fun text _ => ?_
  cases name with
  | none => exact .pure ⟨_, rfl, rfl⟩
  | some name => exact .table_bind (.pure ⟨_, rfl, rfl, text, rfl⟩)

section

variable {id : Nat} {symbol : Symbol} (hid : base.table.get? id = some symbol)
include hid

/-- **A function leaves one declaration**, however many overloads it has. -/
lemma functionItems_ensures (hkind : symbol.kind = .function) (hcalls : symbol.OnlyCalls) :
    (functionItems id symbol).Ensures base (symbol.Emits (base.flatName symbol)) := by
  have hemitted : symbol.kind.isEmitted = true := by rw [hkind]; rfl
  unfold functionItems
  by_cases hempty : symbol.callSignatures.isEmpty = true
  · rw [if_pos hempty]
    exact .bind (P := fun _ => False) (.throw _) fun _ h => h.elim
  · rw [if_neg hempty]
    refine .bind (nameOf_ensures hbase hid hemitted) fun name hname => ?_
    obtain ⟨m, rest, hmembers⟩ : ∃ m rest, symbol.members = m :: rest := by
      refine List.exists_cons_of_ne_nil fun hnil => hempty ?_
      simp [Symbol.callSignatures, hnil]
    unfold Symbol.OnlyCalls at hcalls
    rw [hmembers] at hcalls ⊢
    rw [mergeMembers, groupMembers_calls hcalls]
    refine .bind (.mapM_singleton (mergeGroup_ensures hbase hcalls)) fun groups hgroups => ?_
    obtain ⟨group, rfl, hgroup⟩ := hgroups
    refine .bind (.mapM_singleton (functionItem_ensures hbase id symbol name hgroup))
      fun all hall => .pure ?_
    obtain ⟨items, rfl, decl, rfl, hdecl⟩ := hall
    simp only [Symbol.Emits, hkind, ← hname]
    exact ⟨decl, rfl, hdecl⟩

/-- A variable leaves a getter, and a setter unless it is constant. -/
lemma variableItems_ensures (hkind : symbol.kind = .variable) :
    (variableItems id symbol).Ensures base (symbol.Emits (base.flatName symbol)) := by
  have hemitted : symbol.kind.isEmitted = true := by rw [hkind]; rfl
  unfold variableItems
  cases htype : symbol.variableType? with
  | none => exact .throw _
  | some typed =>
      obtain ⟨type, readonly⟩ := typed
      refine .bind (.of_traced hbase (declaredType_traced _)) fun text _ => ?_
      refine .bind (nameOf_ensures hbase hid hemitted) fun name hname => ?_
      cases name with
      | none =>
          refine .pure ?_
          simp only [Symbol.Emits, hkind, ← hname]
          exact ⟨type, readonly, text, htype, rfl⟩
      | some name =>
          refine .table_bind (.pure ?_)
          simp only [Symbol.Emits, hkind, ← hname]
          refine ⟨type, readonly, text, htype, scriptTag base.table id symbol name, ?_⟩
          cases readonly <;> rfl

lemma classItem_ensures (hkind : symbol.kind.isEmitted = true) :
    (classItem id symbol).Ensures base fun item => match base.flatName symbol with
      | some name => item.decl.kind = .klass ∧
          ∃ heritage, item.decl.header = classHeader symbol name heritage
      | none => item.decl.kind = .stub ∧ item.members = [] := by
  unfold classItem
  refine .bind (nameOf_ensures hbase hid hkind) fun name hname => ?_
  rw [← hname]
  cases name with
  | none => exact .pure ⟨rfl, rfl⟩
  | some name =>
      refine .inScope _ ?_
      unfold classBody
      refine .bind (.of_traced hbase (Heritage.of_traced symbol)) fun heritage _ => ?_
      refine .table_bind ?_
      refine .bind (.of_traced hbase (mergeMembers_traced _)) fun groups _ => ?_
      refine .bind (.of_traced hbase (.mapM fun group _ => memberDecls_traced name group))
        fun members _ => .pure ⟨rfl, heritage, rfl⟩

end

/-- **Each symbol leaves what its kind asks for.** -/
lemma symbolItems_ensures {id : Nat} {symbol : Symbol} (hid : base.table.get? id = some symbol)
    (hcalls : symbol.kind = .function → symbol.OnlyCalls) (hkind : symbol.kind ≠ .nameSpace)
    (inside : Nat → Work (List Item)) :
    (symbolItems inside id symbol).Ensures base (symbol.Emits (base.flatName symbol)) := by
  refine .bind (.pointAt _) fun _ _ => ?_
  cases hk : symbol.kind with
  | nameSpace => exact absurd hk hkind
  | klass | interface | enum =>
      have hemitted : symbol.kind.isEmitted = true := by rw [hk]; rfl
      refine .bind (classItem_ensures hbase hid hemitted) fun item hitem => .pure ?_
      simp only [Symbol.Emits, hk]
      exact ⟨item, rfl, hitem⟩
  | function => exact functionItems_ensures hbase hid hk (hcalls hk)
  | «variable» => exact variableItems_ensures hbase hid hk
  | «alias» | typeParameter =>
      refine .pure ?_
      simp [Symbol.Emits, hk]

end

/-! ## What is written for a file -/

/-- **What stands for symbols**, one after another: for each something that has a given relation to
it. -/
def Session.Lists {α : Type} (s : Session) (E : Nat → Symbol → List α → Prop) (ids : List Nat)
    (items : List α) : Prop :=
  ∃ parts, List.Forall₂ (fun id part => ∃ symbol, s.table.get? id = some symbol ∧
    E id symbol part) ids parts ∧ items = parts.flatten

/-- **What is written for symbols**, one after another: for each what its kind asks for, under the
name that it has in the session. -/
def Session.Writes (s : Session) (ids : List Nat) (items : List Item) : Prop :=
  ∃ parts, List.Forall₂ (fun id part => ∃ symbol, s.table.get? id = some symbol ∧
    symbol.Emits (s.flatName symbol) part) ids parts ∧ items = parts.flatten

namespace Session.Lists

variable {α : Type} {s : Session} {E : Nat → Symbol → List α → Prop}

lemma nil : s.Lists E [] [] :=
  ⟨[], .nil, rfl⟩

lemma cons {id : Nat} {ids : List Nat} {symbol : Symbol} {part items : List α}
    (hid : s.table.get? id = some symbol) (hpart : E id symbol part) (h : s.Lists E ids items) :
    s.Lists E (id :: ids) (part ++ items) := by
  obtain ⟨parts, hparts, rfl⟩ := h
  exact ⟨part :: parts, .cons ⟨symbol, hid, hpart⟩ hparts, rfl⟩

lemma append {ids more : List Nat} {items others : List α} (h : s.Lists E ids items)
    (k : s.Lists E more others) : s.Lists E (ids ++ more) (items ++ others) := by
  obtain ⟨parts, hparts, rfl⟩ := h
  obtain ⟨rest, hrest, rfl⟩ := k
  exact ⟨parts ++ rest, List.rel_append hparts hrest, List.flatten_append.symm⟩

lemma flatMap {walk : Nat → List Nat} : ∀ {ids : List Nat} {parts : List (List α)},
    List.Forall₂ (fun id part => s.Lists E (walk id) part) ids parts →
      s.Lists E (ids.flatMap walk) parts.flatten
  | _, _, .nil => nil
  | _, _, .cons h hrest => h.append (flatMap hrest)

/-- If what stands for each symbol is put together from something, so is the whole. -/
lemma exists_map {β : Type} {D : Nat → Symbol → List β → Prop} {f : β → α} {ids : List Nat}
    {items : List α}
    (h : s.Lists (fun id symbol part => ∃ sources, D id symbol sources ∧ part = sources.map f)
      ids items) : ∃ sources, s.Lists D ids sources ∧ items = sources.map f := by
  obtain ⟨parts, hparts, rfl⟩ := h
  induction hparts with
  | nil => exact ⟨[], nil, rfl⟩
  | cons hpart _ ih =>
      obtain ⟨symbol, hsymbol, sources, hsources, rfl⟩ := hpart
      obtain ⟨rest, hrest, hitems⟩ := ih
      refine ⟨sources ++ rest, cons hsymbol hsources hrest, ?_⟩
      rw [List.flatten_cons, hitems, List.map_append]

end Session.Lists

/-- **What is written for the symbols of a file** has a relation to them.  A namespace leaves nothing
itself. -/
structure Session.Relates (base : Session) (E : Nat → Symbol → List Item → Prop) (file : Nat) :
    Prop where
  nameSpace : ∀ id s, base.table.get? id = some s → s.kind = .nameSpace → E id s []
  symbol : ∀ id s, base.table.get? id = some s → s.file = file → s.kind ≠ .nameSpace →
    ∀ inside, (symbolItems inside id s).Ensures base (E id s)

section

variable {base : Session} {may : Failure → Prop} {E : Nat → Symbol → List Item → Prop}

/-- **Writing follows the walk** through a namespace. -/
lemma scopeItems_lists {file : Nat} (hE : base.Relates E file) :
    ∀ (levels : Nat) (parent : Option Nat), (scopeItems levels file parent).Ensures base
      (base.Lists E (base.table.scopeWalk levels file parent))
  | 0, _ => .pure .nil
  | levels + 1, parent => by
      refine .table_bind ?_
      refine .bind (.mapM (Q := fun id part => base.Lists E (id ::
        if base.table.isNameSpace id then base.table.scopeWalk levels file (some id) else []) part)
        fun id hid => ?_) fun parts hparts => .pure (.flatMap hparts)
      obtain ⟨symbol, hsymbol, hfile, -⟩ := SymbolTable.mem_children.mp hid
      simp only [hsymbol]
      by_cases hkind : symbol.kind = .nameSpace
      · rw [if_pos (SymbolTable.isNameSpace_iff.mpr ⟨symbol, hsymbol, hkind⟩)]
        refine .bind (.pointAt _) fun _ _ => ?_
        simp only [hkind]
        exact (scopeItems_lists hE levels (some id)).weaken fun part hpart =>
          .cons hsymbol (hE.nameSpace id symbol hsymbol hkind) hpart
      · have hspace : ¬ base.table.isNameSpace id = true := by
          rw [SymbolTable.isNameSpace_iff]
          rintro ⟨other, hother, hkind'⟩
          exact hkind (Option.some.inj (hsymbol.symm.trans hother) ▸ hkind')
        rw [if_neg hspace]
        refine (hE.symbol id symbol hsymbol hfile hkind _).weaken fun part hpart => ?_
        have hone := Session.Lists.cons hsymbol hpart .nil
        rwa [List.append_nil] at hone

/-- **The declarations of a file** are those of the symbols on the walk through it. -/
theorem fileItems_lists {file : Nat} (hE : base.Relates E file) :
    (fileItems file).Ensures base (base.Lists E (base.table.fileWalk file)) :=
  .table_bind (scopeItems_lists hE _ none)

section

variable (hbase : base.Settled may)
include hbase

lemma CollectedFile.items_lists (f : CollectedFile) (hE : base.Relates E f.file) :
    f.items.Ensures base (base.Lists E (base.table.fileWalk f.file)) :=
  .bind (.of_traced hbase (.forM fun d _ => .report d)) fun _ _ => fileItems_lists hE

/-- Files that are written one after another. -/
lemma filesItems_lists : ∀ (files : List CollectedFile), (∀ f ∈ files, base.Relates E f.file) →
    ∀ {s : Session} {items : List Item}, base.SameNames s →
      ((filesItems files).run s).1.1 = .ok items →
        base.Lists E (files.flatMap fun f => base.table.fileWalk f.file) items
  | [], _, _, items, _, hitems => by
      obtain rfl : [] = items := Except.ok.inj hitems
      exact .nil
  | f :: rest, hE, s, items, hs, hitems => by
      obtain ⟨hf, hrest⟩ := List.forall_mem_cons.mp hE
      obtain ⟨hsame, hlists⟩ := f.items_lists hbase hf s hs
      have hafter : base.SameNames (f.after s) := hsame.trans ⟨rfl, rfl, rfl, rfl⟩
      cases hout : (f.items.exec s).1 with
      | error failure =>
          rw [filesItems_cons_error hout] at hitems
          cases hitems
      | ok first =>
          rw [filesItems_cons_ok hout] at hitems
          cases hmore : ((filesItems rest).run (f.after s)).1.1 with
          | error failure => simp [hmore, Except.map] at hitems
          | ok others =>
              simp only [hmore, Except.map, Except.ok.injEq] at hitems
              rw [← hitems]
              exact (hlists first hout).append (filesItems_lists rest hrest hafter hmore)

/-- **A library that is not given up** has the declarations of its files. -/
lemma writeLibrary_lists (library : Nat) (name : String) {files : List CollectedFile}
    (hE : ∀ f ∈ files, base.Relates E f.file) {s : Session} (hs : base.SameNames s)
    (hok : ((writeLibrary library name files).run s).1.failure = none) :
    ∃ imports items, base.Lists E (files.flatMap fun f => base.table.fileWalk f.file) items ∧
      ((writeLibrary library name files).run s).1.text = libraryText name imports items := by
  have henter : base.SameNames (s.enter library) := hs.trans ⟨rfl, rfl, rfl, rfl⟩
  rw [writeLibrary_run] at hok ⊢
  simp only [finishLibrary] at hok ⊢
  cases hout : ((filesItems files).run (s.enter library)).1.1 with
  | error failure => simp [hout] at hok
  | ok items => exact ⟨_, items, filesItems_lists hbase files hE henter hout, rfl⟩

/-- The libraries of a run, each of which may be given up or not. -/
lemma writeLibraries_lists : ∀ (plans : List LibraryPlan) (first : Nat) {s : Session},
    (∀ plan ∈ plans, ∀ f ∈ plan.files, base.Relates E f.file) → base.SameNames s →
      List.Forall₂ (fun plan unit => unit.failure = none → ∃ imports items,
        base.Lists E (plan.files.flatMap fun f => base.table.fileWalk f.file) items ∧
          unit.text = libraryText plan.name imports items)
      plans ((writeLibraries first plans).run s).1
  | [], _, _, _, _ => .nil
  | plan :: plans, first, s, hE, hs => by
      obtain ⟨hplan, hplans⟩ := List.forall_mem_cons.mp hE
      have henter : base.SameNames (s.enter first) := hs.trans ⟨rfl, rfl, rfl, rfl⟩
      have hkept :=
        (writeLibrary_leaves first plan.name plan.files (hs.settled hbase)).kept
      have hafter : base.SameNames ((writeLibrary first plan.name plan.files).run s).2 := by
        refine henter.trans ?_
        constructor <;> rw [hkept] <;> rfl
      exact .cons (writeLibrary_lists hbase first plan.name hplan hs)
        (writeLibraries_lists plans (first + 1) hplans hafter)

end

/-- What is written for a symbol is what its kind asks for. -/
lemma relates_emits (hbase : base.Settled may)
    (hcalls : ∀ id s, base.table.get? id = some s → s.kind = .function → s.OnlyCalls) (file : Nat) :
    base.Relates (fun _ symbol => symbol.Emits (base.flatName symbol)) file where
  nameSpace id s hs hkind := by simp [Symbol.Emits, hkind]
  symbol id s hs _ hkind inside := symbolItems_ensures hbase hs (hcalls id s hs) hkind inside

end

/-! ## The declarations of a run -/

lemma collect_calls (files : List ReadFile) {id : Nat} {s : Symbol}
    (hs : (collect files).1.get? id = some s) (hkind : s.kind = .function) : s.OnlyCalls :=
  ((declareFiles_registered files).grows
    (defineFiles_defines files (declareFiles_registered files) fun _ h => h).grows).calls id s hs hkind

/-- **Every declaration is written exactly once.**  A symbol of an input stands where its path says:
in its module, then in the namespaces around it from the outside in, which come before it and are of
the same file.  The walk through a file passes every symbol of the file and no other, and none twice.
Writing the declarations of a file leaves, if it succeeds, for each symbol on the walk what its kind
asks for, and these stand below the imports at the root of the library. -/
theorem planRun_writes (files : List SourceFile) (programs : List Source.Program)
    (options : GenerationOptions) :
    let placed := placeFiles files programs
    let plan := planRun options.merge files programs
    (∀ id s, plan.table.get? id = some s → s.externalName = none →
      ∃ f ∈ placed, s.file = f.place.file ∧
        (∃ names, plan.table.Encloses s.parent names ∧
          s.path.segments = f.place.module :: names ++ [s.name]) ∧
        ∀ p, s.parent = some p →
          p < id ∧ ∃ q, plan.table.get? p = some q ∧ q.kind = .nameSpace ∧ q.file = s.file) ∧
    (∀ file, (plan.table.fileWalk file).Nodup ∧
      ∀ id, id ∈ plan.table.fileWalk file ↔ ∃ s, plan.table.get? id = some s ∧ s.file = file) ∧
    ∃ session, Session.prepare plan.table options plan.libraries = .ok session ∧
      (∀ later, session.Later later → ∀ file items, ((fileItems file).exec later).1 = .ok items →
        session.Writes (plan.table.fileWalk file) items) ∧
      List.Forall₂ (fun library unit => unit.failure = none → ∃ imports items,
          session.Writes (library.files.flatMap fun f => plan.table.fileWalk f.file) items ∧
          unit.text = (libraryOutline library.name imports items).render 0 ∧
          (libraryOutline library.name imports items).below 0 =
            .ofImport "package:js/js.dart" ::
                imports.map (fun other => .ofImport (libraryFile other)) ++
              items.map (·.decl.bare))
        plan.libraries ((writeLibraries 0 plan.libraries).run session).1 := by
  dsimp only
  have hnested : Catalogue.Nested _ (defineFiles _ (placeFiles files programs)).1 :=
    collect_nested (placeFiles files programs) placeFiles_isTop placeFiles_modules_nodup
  have hrooted : (planRun options.merge files programs).table.Rooted := hnested.parent
  obtain ⟨session, hprepare, hready⟩ := prepare_session (planRun options.merge files programs).table
    options (planRun options.merge files programs).libraries
  have hcalls : ∀ id s, session.table.get? id = some s → s.kind = .function → s.OnlyCalls := by
    rw [hready.table_eq]
    exact fun id s hs hkind => collect_calls (placeFiles files programs) hs hkind
  have hrelates := relates_emits hready.settled_any hcalls
  refine ⟨?_, fun file => ⟨hrooted.fileWalk_nodup file, fun id => hrooted.mem_fileWalk⟩, session,
    hprepare, ?_, ?_⟩
  · intro id s hs hexternal
    obtain ⟨module, names, hmodule, hencloses, hsegments⟩ := hnested.path id s hs hexternal
    obtain ⟨f, hf, hpair⟩ := List.mem_map.mp hmodule
    obtain ⟨hfile, rfl⟩ := Prod.mk.inj hpair
    exact ⟨f, hf, hfile.symm, ⟨names, hencloses, hsegments⟩,
      fun p hp => hnested.parent id s p hs hp⟩
  · intro later hlater file items hitems
    have hwrites := (fileItems_lists (hrelates file) later
      (Session.SameNames.later hlater hready.settled_any)).2 items hitems
    rwa [hready.table_eq] at hwrites
  · refine (writeLibraries_lists hready.settled_any _ 0 (fun _ _ f _ => hrelates f.file)
      (.refl session)).imp ?_
    intro library unit hunit hfailure
    obtain ⟨imports, items, hwrites, htext⟩ := hunit hfailure
    rw [hready.table_eq] at hwrites
    exact ⟨imports, items, hwrites, htext, below_libraryOutline library.name imports items⟩

end Interop
