import Interop.Proofs.Signatures

/-!
# How many arguments a declaration takes

A declaration takes its required parameters one by one, and then any number of its optional ones, up
to the last.  The parameters that may be left out are in one pair of brackets, so where one is
followed by others, these are optional too.  If in every signature those that may be left out come
last, so they do in the signature that all are merged into, and what is written is neither shorter
nor longer than it has to be: it takes every number of arguments that one of the signatures takes.

* `Signature.Accepts` — the numbers of arguments that a signature takes.
* `Signature.Positions` — parameters that stand for those of several signatures.
* `Signature.Positions.single`, `Signature.Positions.merged` — those of one signature, and of merged
  ones.
* `WrittenParams` — a parameter list as it is written; `parameterList_eq` — where brackets begin.
* `MemberGroup.Declares` — what a group is declared as; `MemberGroup.Declares.writes` — its header.
* **`declared_arity`** — the parameter list that is written for a group.
-/

namespace Interop

open Work

/-! ## Calls -/

/-- Whether an argument for the parameter may be left out. -/
def Param.isOmissible (p : Param) : Bool :=
  p.optional || p.rest

namespace Signature

/-- **What may be left out comes last.** -/
def OmissibleLast (sig : Signature) : Prop :=
  sig.params.Pairwise fun p q => p.isOmissible = true → q.isOmissible = true

/-- How many parameters may not be left out. -/
def requiredCount (sig : Signature) : Nat :=
  sig.params.countP fun p => !p.isOmissible

/-- **The numbers of arguments that a signature takes**, where a rest parameter takes at most one. -/
def Accepts (sig : Signature) (n : Nat) : Prop :=
  n ≤ sig.params.length ∧ ∀ p ∈ sig.params.drop n, p.isOmissible = true

lemma requiredCount_le_length (sig : Signature) : sig.requiredCount ≤ sig.params.length :=
  List.countP_le_length

/-- The required parameters are those that come first. -/
lemma OmissibleLast.isOmissible_iff {sig : Signature} (h : sig.OmissibleLast) {i : Nat} {p : Param}
    (hp : sig.params[i]? = some p) : p.isOmissible = true ↔ sig.requiredCount ≤ i := by
  obtain ⟨typeParams, params, result⟩ := sig
  dsimp only [OmissibleLast, requiredCount] at h hp ⊢
  induction params generalizing i with
  | nil => cases hp
  | cons q rest ih =>
      obtain ⟨hq, hrest⟩ := List.pairwise_cons.mp h
      by_cases homissible : q.isOmissible = true
      · have hall : ∀ r ∈ q :: rest, r.isOmissible = true :=
          List.forall_mem_cons.mpr ⟨homissible, fun r hr => hq r hr homissible⟩
        have hnone : (q :: rest).countP (fun r => !r.isOmissible) = 0 := by
          refine List.countP_eq_zero.mpr fun r hr => ?_
          simp [hall r hr]
        exact iff_of_true (hall p (List.mem_of_getElem? hp)) (hnone ▸ Nat.zero_le i)
      · rw [List.countP_cons_of_pos (by simpa using homissible)]
        cases i with
        | zero =>
            obtain rfl := Option.some.inj hp
            exact iff_of_false homissible (by omega)
        | succ i =>
            rw [ih hrest hp]
            omega

/-- No call leaves out a required parameter. -/
lemma Accepts.requiredCount_le {sig : Signature} {n : Nat} (hn : sig.Accepts n)
    (h : sig.OmissibleLast) : sig.requiredCount ≤ n := by
  rcases Nat.lt_or_ge n sig.params.length with hlt | hge
  · have hp : sig.params[n]? = some sig.params[n] := List.getElem?_eq_getElem hlt
    refine (h.isOmissible_iff hp).mp (hn.2 _ ?_)
    exact List.mem_drop_iff_getElem.mpr ⟨0, by omega, by simp⟩
  · exact sig.requiredCount_le_length.trans hge

/-! ## Positions -/

/-- The names that stand at a position of signatures, joined. -/
def nameAt (sigs : List Signature) (i : Nat) : String :=
  "_".intercalate ((standing (column (sigs.map (·.params)) i)).map (·.name)).eraseDups

/-- **Parameters that stand for those of signatures**, position by position: as many as the longest
of them has; one may be left out if one of the signatures can do without it; and it is called what
the parameters there are called. -/
structure Positions (sigs : List Signature) (params : List Param) : Prop where
  longest : (∀ sig ∈ sigs, sig.params.length ≤ params.length) ∧
    ∃ sig ∈ sigs, sig.params.length = params.length
  omissible : ∀ (i : Nat) (p : Param), params[i]? = some p →
    (p.isOmissible = true ↔ ∃ sig ∈ sigs, sig.requiredCount ≤ i)
  named : ∀ (i : Nat) (p : Param), params[i]? = some p → ∀ spelling,
    Identifier.escape (nameAt sigs i) .value = some spelling →
      SignatureText.paramName i p = spelling

/-- The parameters of a signature stand for themselves. -/
lemma Positions.single {sig : Signature} (h : sig.OmissibleLast) : Positions [sig] sig.params where
  longest := by simp
  omissible i p hp := by simpa using h.isOmissible_iff hp
  named i p hp spelling hspelling := by
    have hname : nameAt [sig] i = p.name := by
      simp [nameAt, column, standing, hp, List.eraseDups_cons]
    rw [SignatureText.paramName, ← hname, hspelling, Option.getD_some]

end Signature

/-- A position may be left out if it is optional; one that takes any number of arguments is. -/
lemma Slot.Counts.isOmissible_toParam {stack : List (Option Param)} {slot : Slot}
    (h : slot.Counts stack) (hsome : stack ≠ []) : slot.toParam.isOmissible = slot.optional := by
  have hrest : slot.rest = true → slot.optional = true := by
    intro hrest
    obtain ⟨x, hx⟩ := List.exists_mem_of_ne_nil stack hsome
    obtain ⟨p, rfl, hp⟩ := h.rest.mp hrest x hx
    exact h.optional.mpr (.inr ⟨p, hx, .inr hp⟩)
  simp only [Param.isOmissible, Slot.toParam]
  cases hslot : slot.rest with
  | false => simp
  | true => simp [hrest hslot]

namespace Signature

/-- **The parameters of merged signatures** stand for those of all of them. -/
lemma Positions.merged {sigs : List Signature} {slots : List Slot} {s : Session}
    (h : Slots.Merge s (sigs.map (·.params)) slots) (horder : ∀ sig ∈ sigs, sig.OmissibleLast) :
    Positions sigs (slots.map Slot.toParam) := by
  have hslot : ∀ (i : Nat) (p : Param), (slots.map Slot.toParam)[i]? = some p →
      ∃ slot : Slot, slot.toParam = p ∧ slot.Counts (column (sigs.map (·.params)) i) := by
    intro i p hp
    rw [List.getElem?_map] at hp
    obtain ⟨slot, hslot, rfl⟩ := Option.map_eq_some_iff.mp hp
    exact ⟨slot, rfl, (h.position i slot hslot).toCounts⟩
  obtain ⟨-, longest, hlongest, -⟩ := h.longest
  refine ⟨by simpa using h.longest, fun i p hp => ?omissible, fun i p hp spelling hspelling => ?named⟩
  case omissible =>
    obtain ⟨slot, rfl, hcounts⟩ := hslot i p hp
    have hsome : column (sigs.map (·.params)) i ≠ [] :=
      List.ne_nil_of_mem (List.mem_map_of_mem hlongest)
    rw [hcounts.isOmissible_toParam hsome, hcounts.optional]
    constructor
    · rintro (hnone | ⟨q, hq, homissible⟩)
      · obtain ⟨params, hparams, hnone⟩ := List.mem_map.mp hnone
        obtain ⟨sig, hsig, rfl⟩ := List.mem_map.mp hparams
        exact ⟨sig, hsig, sig.requiredCount_le_length.trans (List.getElem?_eq_none_iff.mp hnone)⟩
      · obtain ⟨params, hparams, hq⟩ := List.mem_map.mp hq
        obtain ⟨sig, hsig, rfl⟩ := List.mem_map.mp hparams
        exact ⟨sig, hsig, ((horder sig hsig).isOmissible_iff hq).mp (by simpa [Param.isOmissible])⟩
    · rintro ⟨sig, hsig, hle⟩
      have hmem : sig.params[i]? ∈ column (sigs.map (·.params)) i :=
        List.mem_map_of_mem (List.mem_map_of_mem hsig)
      cases hq : sig.params[i]? with
      | none => exact .inl (hq ▸ hmem)
      | some q =>
          have homissible := ((horder sig hsig).isOmissible_iff hq).mpr hle
          exact .inr ⟨q, hq ▸ hmem, by simpa [Param.isOmissible] using homissible⟩
  case named =>
    obtain ⟨slot, rfl, hcounts⟩ := hslot i p hp
    have hname : slot.name = spelling := by
      rw [Slot.name, hcounts.names]
      exact congrArg (Option.getD · _) hspelling
    have husable := Identifier.usable_of_escape hspelling
    have hparam : slot.toParam.name = spelling := hname
    rw [SignatureText.paramName, hparam, Identifier.escape_of_usable husable, Option.getD_some]

end Signature

/-- **The signature that a group is declared with** has parameters that stand for those of all its
members. -/
lemma MergesGroup.positions {s t : Session} {group : List Member} {merged : MemberGroup}
    {sigs : List Signature} (h : MergesGroup s t group merged)
    (hsigs : group.map Member.signature? = sigs.map some)
    (horder : ∀ sig ∈ sigs, sig.OmissibleLast) :
    ∃ sig, merged.effective.signature? = some sig ∧ Signature.Positions sigs sig.params := by
  cases h with
  | alone m =>
      obtain ⟨sig, rfl, hsig⟩ := List.map_eq_singleton_iff.mp hsigs.symm
      exact ⟨sig, hsig.symm, .single (horder sig List.mem_cons_self)⟩
  | @together first second rest key sig whole others kind hkey hothers hwhole hkind =>
      obtain rfl : sigs = sig :: others := by
        have hsame := congrArg (List.filterMap id) hsigs
        simpa [hothers] using hsame.symm
      obtain ⟨-, hmerges⟩ := mergeSignatures_merges sig others _ whole t hwhole
      obtain ⟨slots, results, hmerging, hparams, -⟩ := hmerges.merging
      refine ⟨whole, MemberKind.signature?_withSignature? hkind, ?_⟩
      rw [hparams]
      exact Signature.Positions.merged hmerging.params horder

/-! ## Parameter lists as they are written -/

/-- A parameter list as it is written: required parameters, and the optional ones in brackets. -/
structure WrittenParams where
  required : List String
  optional : List String

namespace WrittenParams

/-- The text of a parameter list: the brackets with all optional parameters come last. -/
def text (list : WrittenParams) : String :=
  ", ".intercalate (list.required ++
    if list.optional = [] then [] else ["[" ++ ", ".intercalate list.optional ++ "]"])

/-- All parameters in order. -/
def all (list : WrittenParams) : List String :=
  list.required ++ list.optional

/-- **The numbers of arguments that may be given**: all required ones, and optional ones from the
first one on. -/
def Accepts (list : WrittenParams) (n : Nat) : Prop :=
  list.required.length ≤ n ∧ n ≤ list.all.length

/-- The list of which the first parameters are required. -/
def split (params : List (Bool × String)) (k : Nat) : WrittenParams :=
  ⟨(params.take k).map (·.2), (params.drop k).map (·.2)⟩

@[simp] lemma all_split (params : List (Bool × String)) (k : Nat) :
    (split params k).all = params.map (·.2) := by
  rw [all, split, ← List.map_append, List.take_append_drop]

lemma length_required_split {params : List (Bool × String)} {k : Nat} (h : k ≤ params.length) :
    (split params k).required.length = k := by
  simp [split, h]

end WrittenParams

section

variable {separator last : String}

/-- One more text. -/
lemma intercalate_concat : ∀ {texts : List String}, texts ≠ [] →
    separator.intercalate (texts ++ [last]) = separator.intercalate texts ++ separator ++ last
  | [text], _ => by simp [String.intercalate_cons_cons]
  | text :: next :: rest, _ => by
      have ih := intercalate_concat (List.cons_ne_nil next rest)
      simp only [List.cons_append, String.intercalate_cons_cons, String.append_assoc] at ih ⊢
      rw [ih]

lemma intercalate_ne_empty : ∀ {texts : List String}, texts ≠ [] → (∀ text ∈ texts, text ≠ "") →
    separator.intercalate texts ≠ ""
  | [text], _, h => by simpa using h text List.mem_cons_self
  | text :: next :: rest, _, h => by
      simp [String.intercalate_cons_cons, h text List.mem_cons_self]

end

/-- Brackets are put around what is optional, if anything is. -/
lemma bracketed_eq {required optional : List String} (h : ∀ text ∈ required, text ≠ "") :
    bracketed required optional = (WrittenParams.mk required optional).text := by
  unfold bracketed WrittenParams.text
  rcases optional with _ | ⟨first, rest⟩
  · simp
  · rcases eq_or_ne required [] with rfl | hrequired
    · simp
    · have hhead : (", ".intercalate required).isEmpty = false := by
        simpa using intercalate_ne_empty hrequired h
      rw [if_neg (List.cons_ne_nil first rest), intercalate_concat hrequired]
      simp only [List.isEmpty_cons, hhead, Bool.false_eq_true, if_false, String.append_assoc]

/-- If a flag is on from some place on, and off before, the list is split at that place. -/
lemma takeWhile_dropWhile_eq {params : List (Bool × String)} {k : Nat}
    (hflags : ∀ (i : Nat) (x : Bool × String), params[i]? = some x → (x.1 = true ↔ k ≤ i)) :
    params.takeWhile (fun x => !x.1) = params.take k ∧
      params.dropWhile (fun x => !x.1) = params.drop k := by
  induction params generalizing k with
  | nil => simp
  | cons x rest ih =>
      have hfirst := hflags 0 x rfl
      cases k with
      | zero => simp [hfirst.mpr le_rfl]
      | succ k =>
          have hoff : x.1 = false := by
            rw [Bool.eq_false_iff, Ne, hfirst]
            omega
          have hrest : ∀ (i : Nat) (y : Bool × String), rest[i]? = some y →
              (y.1 = true ↔ k ≤ i) := by
            intro i y hy
            rw [hflags (i + 1) y hy]
            omega
          obtain ⟨htake, hdrop⟩ := ih hrest
          simp [hoff, htake, hdrop]

/-- **Where the brackets begin**, if the parameters from some place on may be left out. -/
lemma parameterList_eq {params : List (Bool × String)} {k : Nat}
    (hflags : ∀ (i : Nat) (x : Bool × String), params[i]? = some x → (x.1 = true ↔ k ≤ i))
    (htexts : ∀ x ∈ params, x.2 ≠ "") :
    parameterList params = (WrittenParams.split params k).text := by
  obtain ⟨htake, hdrop⟩ := takeWhile_dropWhile_eq hflags
  rw [parameterList, htake, hdrop]
  refine bracketed_eq fun text htext => ?_
  obtain ⟨x, hx, rfl⟩ := List.mem_map.mp htext
  exact htexts x (List.mem_of_mem_take hx)

/-! ## Declarations -/

/-- **A header with a parameter list**: of a function, a constructor or an operator. -/
inductive HasParameters (list : String) : String → Prop
  | function (modifier name result generics : String) :
      HasParameters list (functionHeader modifier name ⟨result, generics, list⟩)
  | factory (className : String) :
      HasParameters list ("external factory " ++ className ++ "(" ++ list ++ ");")
  | operator (result : String) :
      HasParameters list ("external " ++ result ++ " operator [](" ++ list ++ ");")

/-- **What a group is declared as**, in a class or at the top of a library; of an operator that reads
and one that writes, the one that reads. -/
def MemberGroup.Declares (group : MemberGroup) (decl : OutputDecl) : Prop :=
  (∃ className s more t, (memberDecls className group).exec s = (.ok (decl :: more), t)) ∨
    ∃ id symbol name s members more t,
      (functionItem id symbol name group).exec s = (.ok (⟨decl, members⟩ :: more), t)

/-- **What is written for a parameter at its place**: the type of an argument, and a name. -/
def Param.WrittenAs (p : Param) (place : Nat) (text : String) : Prop :=
  ∃ type s t, (declaredType p.argumentType).exec s = (.ok type, t) ∧
    text = type ++ " " ++ SignatureText.paramName place p

/-- What is written for a parameter, and whether it may be left out. -/
def WritesParam (p : Param × Nat) (text : Bool × String) : Prop :=
  text.1 = p.1.isOmissible ∧ p.1.WrittenAs p.2 text.2

/-- A header in which the parameters of a signature are written, one after the other. -/
def Signature.WrittenIn (sig : Signature) (header : String) : Prop :=
  ∃ params, List.Forall₂ WritesParam sig.params.zipIdx params ∧
    HasParameters (parameterList params) header

/-- A signature is written with its parameters. -/
def SignatureText.Writes (sig : Signature) (text : SignatureText) : Prop :=
  ∀ header, HasParameters text.params header → sig.WrittenIn header

section

variable {sig : Signature} {group : MemberGroup}

lemma SignatureText.parts_writes (sig : Signature) (generics : String) :
    (SignatureText.parts sig generics).Yields (fun _ => True) (fun _ => True) (Writes sig) := by
  refine .bind (.results _) fun result _ => ?_
  refine .map (.forall₂_mapM (Q := WritesParam) fun p _ => ?_) fun params hparams header hheader =>
    ⟨params, hparams, hheader⟩
  exact .map (.results _) fun type ⟨s, t, hrun⟩ => ⟨rfl, type, s, t, hrun, rfl⟩

lemma SignatureText.of_writes (sig : Signature) :
    (SignatureText.of sig).Yields (fun _ => True) (fun _ => True) (Writes sig) :=
  .within (fun _ _ => trivial) (fun _ _ => trivial) (parts_writes sig _)

/-- A method has a parameter list, whether its name is legal or not. -/
lemma hasParameters_methodDecl (modifier name : String) (text : SignatureText) (docs : List String) :
    HasParameters text.params (methodDecl modifier name text docs).header := by
  unfold methodDecl
  split <;> exact .function ..

/-- In a class the parameters of a group's signature are written. -/
lemma memberDecls_writes (className : String) (hsig : group.effective.signature? = some sig) :
    (memberDecls className group).Yields (fun _ => True) (fun _ => True)
      fun decls => ∀ decl ∈ decls.head?, sig.WrittenIn decl.header := by
  have hfirst : ∀ {decl : OutputDecl} {more : List OutputDecl}, sig.WrittenIn decl.header →
      ∀ other ∈ (decl :: more).head?, sig.WrittenIn other.header :=
    fun hdecl _ hother => Option.some.inj hother ▸ hdecl
  refine .bind (.results _) fun _ _ => ?_
  dsimp only
  unfold Member.signature? at hsig
  generalize group.effective.kind = kind at hsig ⊢
  cases kind with
  | property | nested => cases hsig
  | method =>
      cases hsig
      exact .map (SignatureText.of_writes sig) fun text htext =>
        hfirst (htext _ (hasParameters_methodDecl ..))
  | call =>
      cases hsig
      exact .map (SignatureText.of_writes sig) fun text htext => hfirst (htext _ (.function ..))
  | construct =>
      cases hsig
      exact .map (SignatureText.parts_writes sig "") fun text htext =>
        hfirst (htext _ (.factory className))
  | index =>
      cases hsig
      exact .map (SignatureText.parts_writes sig "") fun text htext =>
        hfirst (htext _ (.operator text.result))

/-- At the top of a library the parameters of a group's signature are written. -/
lemma functionItem_writes (id : Nat) (symbol : Symbol) (name : Option String)
    (hsig : group.effective.signature? = some sig) :
    (functionItem id symbol name group).Yields (fun _ => True) (fun _ => True)
      fun items => ∀ item ∈ items.head?, sig.WrittenIn item.decl.header := by
  unfold functionItem
  rw [hsig]
  refine .bind (.results _) fun _ _ => .bind (SignatureText.of_writes sig) fun text htext => ?_
  cases name with
  | none =>
      exact .pure fun item hitem => Option.some.inj hitem ▸ htext _ (.function ..)
  | some name =>
      refine .bind (.results _) fun table _ => .pure fun item hitem => ?_
      exact Option.some.inj hitem ▸ htext _ (.function ..)

/-- **A group is declared with its signature.** -/
lemma MemberGroup.Declares.writes {decl : OutputDecl} (h : group.Declares decl)
    (hsig : group.effective.signature? = some sig) : sig.WrittenIn decl.header := by
  rcases h with ⟨className, s, more, t, hrun⟩ | ⟨id, symbol, name, s, members, more, t, hrun⟩
  · exact (memberDecls_writes className hsig).of_ok trivial hrun decl rfl
  · exact (functionItem_writes id symbol name hsig).of_ok trivial hrun _ rfl

end

/-- What is written at a place belongs to the parameter there. -/
lemma writesParam_of_getElem? {sig : Signature} {params : List (Bool × String)}
    (h : List.Forall₂ WritesParam sig.params.zipIdx params) {i : Nat} {text : Bool × String}
    (htext : params[i]? = some text) : ∃ p, sig.params[i]? = some p ∧ WritesParam (p, i) text := by
  obtain ⟨hlt, rfl⟩ := List.getElem?_eq_some_iff.mp htext
  have hplace : i < sig.params.length := by
    rwa [← h.length_eq, List.length_zipIdx] at hlt
  refine ⟨sig.params[i], List.getElem?_eq_getElem hplace, ?_⟩
  simpa using h.get (by rwa [List.length_zipIdx]) hlt

/-- **The parameter list that is written for a group** of overloads, of any size, in the signatures of
which what may be left out comes last.  The parameters of the member that stands for the group are
written in order, each called what the parameters at its position are called.  As many are required as in the signature with the fewest required ones, and all
others are in one pair of brackets; there are as many positions as the longest signature has.  So
every number of arguments that one of the signatures takes may be given. -/
theorem declared_arity {group : List Member} {sigs : List Signature}
    (hgroup : group.Pairwise Member.Overloads)
    (hsigs : group.map Member.signature? = sigs.map some)
    (horder : ∀ sig ∈ sigs, sig.OmissibleLast) {s t : Session} {merged : MemberGroup}
    (hrun : (mergeGroup group).exec s = (.ok merged, t)) {decl : OutputDecl}
    (hdecl : merged.Declares decl) :
    ∃ (whole : Signature) (list : WrittenParams), merged.effective.signature? = some whole ∧
      HasParameters list.text decl.header ∧ list.all.length = whole.params.length ∧
      (∀ (i : Nat) (text : String), list.all[i]? = some text → ∃ p, whole.params[i]? = some p ∧
        p.WrittenAs i text ∧ ∀ spelling,
          Identifier.escape (Signature.nameAt sigs i) .value = some spelling →
            SignatureText.paramName i p = spelling) ∧
      (∀ sig ∈ sigs, list.required.length ≤ sig.requiredCount) ∧
      (∃ sig ∈ sigs, list.required.length = sig.requiredCount) ∧
      (∀ sig ∈ sigs, sig.params.length ≤ list.all.length) ∧
      (∃ sig ∈ sigs, sig.params.length = list.all.length) ∧
      ∀ sig ∈ sigs, ∀ n, sig.Accepts n → list.Accepts n := by
  obtain ⟨whole, hwhole, hpositions⟩ := (mergesGroup_of_exec hgroup hrun).positions hsigs horder
  obtain ⟨params, hparams, hheader⟩ := hdecl.writes hwhole
  obtain ⟨hall, longest, hlongest, hlength⟩ := hpositions.longest
  -- the brackets begin where the signature with the fewest required parameters has its last one
  obtain ⟨fewest, hfewest, hleast⟩ := Set.exists_min_image {sig | sig ∈ sigs}
    Signature.requiredCount sigs.finite_toSet ⟨longest, hlongest⟩
  have hsame : params.length = whole.params.length := by
    rw [← hparams.length_eq, List.length_zipIdx]
  let list : WrittenParams := .split params fewest.requiredCount
  have hrequired : list.required.length = fewest.requiredCount :=
    WrittenParams.length_required_split
      (hsame ▸ fewest.requiredCount_le_length.trans (hall fewest hfewest))
  have htotal : list.all.length = whole.params.length := by
    rw [WrittenParams.all_split, List.length_map, hsame]
  refine ⟨whole, list, hwhole, ?header, htotal, ?named, fun sig hsig => ?_,
    ⟨fewest, hfewest, hrequired⟩, fun sig hsig => htotal ▸ hall sig hsig,
    ⟨longest, hlongest, hlength.trans htotal.symm⟩, fun sig hsig n hn => ⟨?_, ?_⟩⟩
  case header =>
    have hbracket : parameterList params = list.text := by
      refine parameterList_eq (fun i x hx => ?_) fun x hx => ?_
      · obtain ⟨p, hp, hflag, -⟩ := writesParam_of_getElem? hparams hx
        rw [hflag, hpositions.omissible i p hp]
        exact ⟨fun ⟨sig, hsig, hle⟩ => (hleast sig hsig).trans hle, fun hle => ⟨fewest, hfewest, hle⟩⟩
      · obtain ⟨i, hi⟩ := List.mem_iff_getElem?.mp hx
        obtain ⟨p, -, -, type, -, -, -, htext⟩ := writesParam_of_getElem? hparams hi
        simp [htext]
    exact hbracket ▸ hheader
  case named =>
    intro i text htext
    rw [WrittenParams.all_split, List.getElem?_map] at htext
    obtain ⟨x, hx, rfl⟩ := Option.map_eq_some_iff.mp htext
    obtain ⟨p, hp, -, hwritten⟩ := writesParam_of_getElem? hparams hx
    exact ⟨p, hp, hwritten, hpositions.named i p hp⟩
  · exact hrequired.trans_le (hleast sig hsig)
  · exact hrequired.trans_le ((hleast sig hsig).trans (hn.requiredCount_le (horder sig hsig)))
  · exact htotal ▸ hn.1.trans (hall sig hsig)

/-- Overloads with an optional and a rest parameter, merged and declared in a class. -/
theorem declared_arity_methods :
    let overload (params : List Param) : Member :=
      ⟨some "f", .method ⟨[], params, .void⟩ false, false, Span.none⟩
    let short : List Param := [⟨"a", .primitive .string, false, false⟩,
      ⟨"b", .primitive .number, true, false⟩]
    let long : List Param := [⟨"x", .primitive .string, false, false⟩,
      ⟨"y", .primitive .number, false, false⟩, ⟨"more", .array (.primitive .boolean), false, true⟩]
    ∃ merged t decl,
      (mergeGroup [overload short, overload long]).exec (.start {} .batch .untyped) =
        (.ok merged, t) ∧
      merged.Declares decl ∧ decl.header = "external void f(String a_x, [num b_y, bool more]);" ∧
      ∃ list : WrittenParams, HasParameters list.text decl.header ∧
        ∀ n ∈ [1, 2, 3], list.Accepts n := by
  intro overload short long
  obtain ⟨merged, t, decl, hrun, hdecl, hheader⟩ : ∃ merged t decl,
      (mergeGroup [overload short, overload long]).exec (.start {} .batch .untyped) =
        (.ok merged, t) ∧
      merged.Declares decl ∧ decl.header = "external void f(String a_x, [num b_y, bool more]);" :=
    ⟨_, _, _, Prod.ext rfl rfl,
      .inl ⟨"A", .start {} .batch .untyped, _, _, Prod.ext rfl rfl⟩, by decide +kernel⟩
  let sigs : List Signature := [⟨[], short, .void⟩, ⟨[], long, .void⟩]
  have hgroup : [overload short, overload long].Pairwise Member.Overloads := by
    simp [overload, Member.Overloads, OverloadKey.of?]
  have hsigs : [overload short, overload long].map Member.signature? = sigs.map some := rfl
  have horder : ∀ sig ∈ sigs, sig.OmissibleLast := by
    simp [sigs, short, long, Signature.OmissibleLast, Param.isOmissible]
  obtain ⟨-, list, -, hlist, -, -, -, -, -, -, haccepts⟩ := declared_arity hgroup hsigs horder hrun hdecl
  refine ⟨merged, t, decl, hrun, hdecl, hheader, list, hlist, ?_⟩
  have hshort := haccepts ⟨[], short, .void⟩ (by simp [sigs])
  have hlong := haccepts ⟨[], long, .void⟩ (by simp [sigs])
  have hone : (Signature.mk [] short .void).Accepts 1 := by
    simp [Signature.Accepts, short, Param.isOmissible]
  have htwo : (Signature.mk [] short .void).Accepts 2 := by
    simp [Signature.Accepts, short]
  have hthree : (Signature.mk [] long .void).Accepts 3 := by
    simp [Signature.Accepts, long]
  simpa using ⟨hshort 1 hone, hshort 2 htwo, hlong 3 hthree⟩

end Interop
