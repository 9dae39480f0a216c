import Interop.Proofs.Arity

/-!
# Names of the parameters of a declaration

The names that stand at a position of overloads are joined and then escaped.  Two positions can get one
name that way: their joined names may be the same, though no signature has a name twice; a taken word
and its escaped form are written alike; and what stands in the place of a name that cannot be spelled
may be the name of another parameter.  The operator that writes by a key adds a parameter of its own.

* `Signature.writtenAt` — the name that is written for a position.
* `Signature.NamedAlike` — positions that get one name; `Signature.writtenAt_eq_iff` says so.
* `Signature.HasNames` — the names of the parameters in a header.
* `Signature.NamedPlainly` — signatures that agree on names which nothing is escaped to.
* **`parameter_names`** — when the names of the parameters of a declaration are distinct.
-/

namespace Interop

open Work

namespace Signature

/-! ## Names of positions -/

/-- What stands in the place of a joined name that cannot be spelled: the number of the position in a
signature that is alone, and what the name is sanitized to in one that stands for several. -/
def fallbackAt (sigs : List Signature) (i : Nat) : String :=
  if sigs.length = 1 then "arg" ++ toString i else Identifier.sanitize (nameAt sigs i)

/-- **The name that is written for a position** of signatures. -/
def writtenAt (sigs : List Signature) (i : Nat) : String :=
  (Identifier.escape (nameAt sigs i) .value).getD (fallbackAt sigs i)

/-- **Positions that get one name**: their joined names are escaped alike, one is spelled as what
stands in the place of the other one, or both cannot be spelled and are sanitized alike. -/
inductive NamedAlike (sigs : List Signature) (i j : Nat) : Prop
  | escaped : Identifier.validate (nameAt sigs i) .value ≠ .unusable →
      Identifier.EscapesAlike .value (nameAt sigs i) (nameAt sigs j) → NamedAlike sigs i j
  | replaced : Identifier.validate (nameAt sigs i) .value = .unusable →
      Identifier.escape (nameAt sigs j) .value = some (fallbackAt sigs i) → NamedAlike sigs i j
  | replaces : Identifier.validate (nameAt sigs j) .value = .unusable →
      Identifier.escape (nameAt sigs i) .value = some (fallbackAt sigs j) → NamedAlike sigs i j
  | sanitized : sigs.length ≠ 1 → Identifier.validate (nameAt sigs i) .value = .unusable →
      Identifier.validate (nameAt sigs j) .value = .unusable →
        Identifier.Collide (nameAt sigs i) (nameAt sigs j) → NamedAlike sigs i j

variable {sigs : List Signature} {i j : Nat}

/-- **When two positions get one name.** -/
lemma writtenAt_eq_iff (hne : i ≠ j) :
    writtenAt sigs i = writtenAt sigs j ↔ NamedAlike sigs i j := by
  have hspelled : ∀ {k : Nat} {x : String}, Identifier.escape (nameAt sigs k) .value = some x →
      Identifier.validate (nameAt sigs k) .value ≠ .unusable := by
    intro k x hx h
    rw [Identifier.escape, h] at hx
    cases hx
  unfold writtenAt
  cases hi : Identifier.escape (nameAt sigs i) .value with
  | some x =>
      cases hj : Identifier.escape (nameAt sigs j) .value with
      | some y =>
          refine (Identifier.escape_eq_iff hi hj).trans ⟨.escaped (hspelled hi), ?_⟩
          rintro (⟨-, h⟩ | ⟨h, -⟩ | ⟨h, -⟩ | ⟨-, h, -⟩)
          exacts [h, (hspelled hi h).elim, (hspelled hj h).elim, (hspelled hi h).elim]
      | none =>
          have hunusable := Identifier.escape_eq_none hj
          refine ⟨fun h => .replaces hunusable (hi.trans (congrArg some h)), ?_⟩
          rintro (⟨-, h⟩ | ⟨h, -⟩ | ⟨-, h⟩ | ⟨-, h, -⟩)
          · obtain ⟨z, -, hz⟩ := h.exists_spelling (hspelled hi)
            exact (hspelled hz hunusable).elim
          · exact (hspelled hi h).elim
          · exact Option.some.inj (hi.symm.trans h)
          · exact (hspelled hi h).elim
  | none =>
      have hunusable := Identifier.escape_eq_none hi
      cases hj : Identifier.escape (nameAt sigs j) .value with
      | some y =>
          refine ⟨fun h => .replaced hunusable (hj.trans (congrArg some h.symm)), ?_⟩
          rintro (⟨h, -⟩ | ⟨-, h⟩ | ⟨h, -⟩ | ⟨-, -, h, -⟩)
          · exact (h hunusable).elim
          · exact (Option.some.inj (hj.symm.trans h)).symm
          · exact (hspelled hj h).elim
          · exact (hspelled hj h).elim
      | none =>
          have hunusable' := Identifier.escape_eq_none hj
          have hsame : fallbackAt sigs i = fallbackAt sigs j ↔ sigs.length ≠ 1 ∧
              Identifier.Collide (nameAt sigs i) (nameAt sigs j) := by
            unfold fallbackAt
            split_ifs with hone
            · exact iff_of_false (fun h => hne (Library.numbered_injective "arg" h)) (by simp [hone])
            · simp [hone, Identifier.sanitize_eq_iff]
          refine hsame.trans ⟨fun h => .sanitized h.1 hunusable hunusable' h.2, ?_⟩
          rintro (⟨h, -⟩ | ⟨-, h⟩ | ⟨-, h⟩ | ⟨hone, -, -, h⟩)
          exacts [(h hunusable).elim, by simp [hj] at h, by simp [hi] at h, ⟨hone, h⟩]

/-- A position is written as `value` only if it is called so. -/
lemma writtenAt_eq_value : writtenAt sigs i = "value" ↔ nameAt sigs i = "value" := by
  have husable : Identifier.validate "value" .value = .usable := by decide
  have hletters : ∀ c ∈ "value".toList, c.isAlpha = true :=
    List.all_eq_true.mp (by decide +kernel)
  unfold writtenAt
  cases hi : Identifier.escape (nameAt sigs i) .value with
  | some x =>
      rcases Identifier.escape_eq_some hi with ⟨-, rfl⟩ | hescaped
      · rfl
      · refine iff_of_false ?_ fun h => by simp [h, husable] at hescaped
        obtain ⟨-, -, rfl⟩ := Identifier.validate_eq_escaped_iff.mp hescaped
        intro h
        have hmark := hletters Identifier.escapeMark (h ▸ by simp [Identifier.escaped])
        cases hmark
  | none =>
      refine iff_of_false ?_ fun h => by simp [h, Identifier.escape_of_usable husable] at hi
      show fallbackAt sigs i ≠ "value"
      unfold fallbackAt
      split_ifs
      · intro h
        have hfirst := congrArg (·.toList.head?) h
        simp [String.toList_append] at hfirst
      · intro h
        obtain ⟨c, hc, hletter⟩ := Identifier.exists_mem_sanitize (Identifier.escape_eq_none hi)
        rw [hletters c (h ▸ hc)] at hletter
        cases hletter

/-! ## What is written for the positions of a group -/

/-- The names that are written for the parameters of a signature. -/
def writtenNames (sig : Signature) : List String :=
  sig.params.zipIdx.map fun (p, i) => SignatureText.paramName i p

@[simp] lemma length_writtenNames (sig : Signature) :
    sig.writtenNames.length = sig.params.length := by
  simp [writtenNames]

lemma getElem?_writtenNames (sig : Signature) (i : Nat) :
    sig.writtenNames[i]? = sig.params[i]?.map (SignatureText.paramName i) := by
  simp [writtenNames, List.getElem?_zipIdx, Function.comp_def]

/-- **A signature that stands for others**: as long as the longest of them, and with the names that are
written for their positions. -/
structure NamesPositions (whole : Signature) (sigs : List Signature) : Prop where
  longest : (∀ sig ∈ sigs, sig.params.length ≤ whole.params.length) ∧
    ∃ sig ∈ sigs, sig.params.length = whole.params.length
  written : ∀ i < whole.params.length, whole.writtenNames[i]? = some (writtenAt sigs i)

end Signature

/-- **The signature that a group is declared with** has the names that are written for the positions of
its members. -/
lemma MergesGroup.namesPositions {s t : Session} {group : List Member} {merged : MemberGroup}
    {sigs : List Signature} (h : MergesGroup s t group merged)
    (hsigs : group.map Member.signature? = sigs.map some) :
    ∃ whole, merged.effective.signature? = some whole ∧ whole.NamesPositions sigs := by
  cases h with
  | alone m =>
      obtain ⟨sig, rfl, hsig⟩ := List.map_eq_singleton_iff.mp hsigs.symm
      refine ⟨sig, hsig.symm, by simp, fun i hi => ?_⟩
      have hname : Signature.nameAt [sig] i = sig.params[i].name := by
        simp [Signature.nameAt, column, standing, hi, List.eraseDups_cons]
      rw [Signature.getElem?_writtenNames, List.getElem?_eq_getElem hi, Option.map_some,
        SignatureText.paramName, Signature.writtenAt, Signature.fallbackAt, hname]
      simp
  | @together first second rest key sig whole others kind hkey hothers hwhole hkind =>
      obtain rfl : sigs = sig :: others := by
        have hsame := congrArg (List.filterMap id) hsigs
        simpa [hothers] using hsame.symm
      obtain ⟨-, hmerges⟩ := mergeSignatures_merges sig others _ whole t hwhole
      obtain ⟨slots, results, hmerging, hparams, -⟩ := hmerges.merging
      have hseveral : (sig :: others).length ≠ 1 := by
        have hlength := congrArg List.length hsigs
        simp only [List.length_map, List.length_cons] at hlength ⊢
        omega
      refine ⟨whole, MemberKind.signature?_withSignature? hkind, ?_, fun i hi => ?_⟩
      · simpa [hparams] using hmerging.params.longest
      · have hi' : i < slots.length := by simpa [hparams] using hi
        have hcounts := (hmerging.params.position i slots[i] (List.getElem?_eq_getElem hi')).toCounts
        have hname : slots[i].name = Signature.writtenAt (sig :: others) i := by
          rw [Slot.name, hcounts.names, Signature.writtenAt, Signature.fallbackAt, if_neg hseveral]
          rfl
        have husable : Identifier.validate slots[i].name .value = .usable :=
          Identifier.validate_escape_getD ..
        rw [Signature.getElem?_writtenNames, hparams, List.getElem?_map,
          List.getElem?_eq_getElem hi', ← hname]
        simp [SignatureText.paramName, Slot.toParam, Identifier.escape_of_usable husable]

/-! ## Headers -/

/-- **The names of the parameters in a header**: those of a signature, to which the operator that
writes by a key adds one. -/
inductive Signature.HasNames (sig : Signature) : List String → String → Prop
  | list {header : String} : sig.WrittenIn header → HasNames sig [] header
  | key {params : List (Bool × String)} (result : String) :
      List.Forall₂ WritesParam sig.params.zipIdx params →
        HasNames sig ["value"] ("external void operator []=(" ++
          operatorKey (parameterList params) ++ ", " ++ result ++ " value);")

lemma Signature.HasNames.eq_value {sig : Signature} {added : List String} {name header : String}
    (h : sig.HasNames added header) (hname : name ∈ added) : name = "value" := by
  cases h with
  | list => cases hname
  | key => exact List.mem_singleton.mp hname

/-- **All that a group is declared as**, in a class or at the top of a library. -/
def MemberGroup.DeclaredAs (group : MemberGroup) (decl : OutputDecl) : Prop :=
  (∃ className s decls t, (memberDecls className group).exec s = (.ok decls, t) ∧ decl ∈ decls) ∨
    ∃ id symbol name s items t, (functionItem id symbol name group).exec s = (.ok items, t) ∧
      ∃ item ∈ items, item.decl = decl

section

variable {sig : Signature} {group : MemberGroup}

lemma SignatureText.parts_params (sig : Signature) (generics : String) :
    (SignatureText.parts sig generics).Yields (fun _ => True) (fun _ => True) fun text =>
      ∃ params, List.Forall₂ WritesParam sig.params.zipIdx params ∧
        text.params = parameterList params := by
  refine .bind (.results _) fun result _ => ?_
  refine .map (.forall₂_mapM (Q := WritesParam) fun p _ => ?_) fun params hparams =>
    ⟨params, hparams, rfl⟩
  exact .map (.results _) fun type ⟨s, t, hrun⟩ => ⟨rfl, type, s, t, hrun, rfl⟩

/-- In a class the names of a group's signature are written. -/
lemma memberDecls_names (className : String) (hsig : group.effective.signature? = some sig) :
    (memberDecls className group).Yields (fun _ => True) (fun _ => True) fun decls =>
      ∀ decl ∈ decls, ∃ added, sig.HasNames added decl.header := by
  refine .bind (.results _) fun _ _ => ?_
  dsimp only
  unfold Member.signature? at hsig
  generalize group.effective.kind = kind at hsig ⊢
  cases kind with
  | property | nested => cases hsig
  | method =>
      cases hsig
      exact .map (SignatureText.of_writes sig) fun text htext => List.forall_mem_singleton.mpr
        ⟨[], .list (htext _ (hasParameters_methodDecl ..))⟩
  | call =>
      cases hsig
      exact .map (SignatureText.of_writes sig) fun text htext => List.forall_mem_singleton.mpr
        ⟨[], .list (htext _ (.function ..))⟩
  | construct =>
      cases hsig
      exact .map (SignatureText.parts_writes sig "") fun text htext => List.forall_mem_singleton.mpr
        ⟨[], .list (htext _ (.factory className))⟩
  | index =>
      cases hsig
      refine .map (SignatureText.parts_params sig "") fun text ⟨params, hparams, htext⟩ => ?_
      refine List.forall_mem_cons.mpr ⟨⟨[], .list ⟨params, hparams, ?_⟩⟩,
        List.forall_mem_singleton.mpr ⟨["value"], ?_⟩⟩
      · exact htext ▸ .operator text.result
      · exact htext ▸ .key text.result hparams

/-- At the top of a library the names of a group's signature are written. -/
lemma functionItem_names (id : Nat) (symbol : Symbol) (name : Option String)
    (hsig : group.effective.signature? = some sig) :
    (functionItem id symbol name group).Yields (fun _ => True) (fun _ => True) fun items =>
      ∀ item ∈ items, ∃ added, sig.HasNames added item.decl.header := by
  unfold functionItem
  rw [hsig]
  refine .bind (.results _) fun _ _ => .bind (SignatureText.of_writes sig) fun text htext => ?_
  cases name with
  | none =>
      exact .pure (List.forall_mem_singleton.mpr ⟨[], .list (htext _ (.function ..))⟩)
  | some name =>
      refine .bind (.results _) fun table _ => .pure ?_
      exact List.forall_mem_singleton.mpr ⟨[], .list (htext _ (.function ..))⟩

lemma MemberGroup.DeclaredAs.names {decl : OutputDecl} (h : group.DeclaredAs decl)
    (hsig : group.effective.signature? = some sig) :
    ∃ added, sig.HasNames added decl.header := by
  rcases h with ⟨className, s, decls, t, hrun, hdecl⟩ |
    ⟨id, symbol, name, s, items, t, hrun, item, hitem, rfl⟩
  · exact (memberDecls_names className hsig).of_ok trivial hrun decl hdecl
  · exact (functionItem_names id symbol name hsig).of_ok trivial hrun item hitem

end

/-! ## Names that stay apart -/

/-- **Signatures that agree on names which nothing is escaped to**: what stands at a position is called
the same in all of them, it can be spelled, and no name has the escape mark in front. -/
structure Signature.NamedPlainly (sigs : List Signature) : Prop where
  same : ∀ sig ∈ sigs, ∀ other ∈ sigs, ∀ (i : Nat) (p q : Param), sig.params[i]? = some p →
    other.params[i]? = some q → p.name = q.name
  spelled : ∀ sig ∈ sigs, ∀ p ∈ sig.params, Identifier.validate p.name .value ≠ .unusable
  unmarked : ∀ sig ∈ sigs, ∀ p ∈ sig.params, p.name.toList.head? ≠ some Identifier.escapeMark

namespace Signature

variable {sigs : List Signature}

/-- Where all signatures agree, the name of a position is that of one of them. -/
lemma NamedPlainly.nameAt_eq (h : NamedPlainly sigs) {sig : Signature} (hsig : sig ∈ sigs) {i : Nat}
    {p : Param} (hp : sig.params[i]? = some p) : nameAt sigs i = p.name := by
  have hmem : p.name ∈ (standing (column (sigs.map (·.params)) i)).map (·.name) := by
    refine List.mem_map_of_mem (List.mem_filterMap.mpr ⟨some p, ?_, rfl⟩)
    exact List.mem_map.mpr ⟨sig.params, List.mem_map_of_mem hsig, hp⟩
  have hsame : ∀ name ∈ (standing (column (sigs.map (·.params)) i)).map (·.name),
      name = p.name := by
    intro name hname
    obtain ⟨q, hq, rfl⟩ := List.mem_map.mp hname
    obtain ⟨x, hx, hsome⟩ := List.mem_filterMap.mp hq
    obtain ⟨params, hparams, rfl⟩ := List.mem_map.mp hx
    obtain ⟨other, hother, rfl⟩ := List.mem_map.mp hparams
    exact h.same other hother sig hsig i q p hsome hp
  have hone : ((standing (column (sigs.map (·.params)) i)).map (·.name)).eraseDups = [p.name] := by
    generalize (standing (column (sigs.map (·.params)) i)).map (·.name) = names at hmem hsame ⊢
    cases names with
    | nil => cases hmem
    | cons first rest =>
        obtain ⟨rfl, hrest⟩ := List.forall_mem_cons.mp hsame
        have hnone : rest.filter (fun name => !name == p.name) = [] := by
          simpa [List.filter_eq_nil_iff] using hrest
        rw [List.eraseDups_cons, hnone, List.eraseDups_nil]
  rw [nameAt, hone, String.intercalate_singleton]

/-- Where all signatures agree on plain names and none has a name twice, no positions get one name. -/
lemma NamedPlainly.not_namedAlike (h : NamedPlainly sigs) {sig : Signature} (hsig : sig ∈ sigs)
    (hdistinct : (sig.params.map (·.name)).Nodup) {i j : Nat} (hij : i < j)
    (hj : j < sig.params.length) : ¬ NamedAlike sigs i j := by
  have hat : ∀ k (hk : k < sig.params.length), nameAt sigs k = sig.params[k].name ∧
      Identifier.validate sig.params[k].name .value ≠ .unusable ∧
        sig.params[k].name.toList.head? ≠ some Identifier.escapeMark := fun k hk =>
    ⟨h.nameAt_eq hsig (List.getElem?_eq_getElem hk), h.spelled sig hsig _ (List.getElem_mem hk),
      h.unmarked sig hsig _ (List.getElem_mem hk)⟩
  obtain ⟨hi, hlegal, hplain⟩ := hat i (hij.trans hj)
  obtain ⟨hj', hlegal', hplain'⟩ := hat j hj
  have hmarked : ∀ {a b : String}, Identifier.validate a .value = .escaped b →
      b.toList.head? = some Identifier.escapeMark := fun hvalid => by
    simp [(Identifier.validate_eq_escaped_iff.mp hvalid).2.2, Identifier.escaped]
  rintro (⟨-, hsame | hescaped | hescaped⟩ | ⟨hnone, -⟩ | ⟨hnone, -⟩ | ⟨-, hnone, -⟩)
  · rw [hi, hj'] at hsame
    have hindex : i = j := (List.getElem?_inj (by simpa using hij.trans hj) hdistinct).mp (by
      simp only [List.getElem?_map, List.getElem?_eq_getElem (hij.trans hj),
        List.getElem?_eq_getElem hj, Option.map_some, hsame])
    omega
  · exact hplain' (hj' ▸ hmarked hescaped)
  · exact hplain (hi ▸ hmarked hescaped)
  · exact hlegal (hi ▸ hnone)
  · exact hlegal' (hj' ▸ hnone)
  · exact hlegal (hi ▸ hnone)

/-- **When the names that are written are distinct.** -/
lemma NamesPositions.nodup_iff {whole : Signature} (h : whole.NamesPositions sigs)
    {added : List String} {header : String} (hnames : whole.HasNames added header) :
    (whole.writtenNames ++ added).Nodup ↔
      (∀ i j, i < j → j < whole.params.length → ¬ NamedAlike sigs i j) ∧
        ∀ i < whole.params.length, nameAt sigs i ∉ added := by
  have hpairs : whole.writtenNames.Nodup ↔
      ∀ i j, i < j → j < whole.params.length → ¬ NamedAlike sigs i j := by
    rw [List.nodup_iff_getElem?_ne_getElem?, length_writtenNames]
    refine forall₂_congr fun i j => forall₂_congr fun hij hj => not_congr ?_
    rw [h.written i (hij.trans hj), h.written j hj, Option.some.injEq, writtenAt_eq_iff hij.ne]
  have hvalue : (∀ name ∈ whole.writtenNames, name ≠ "value") ↔
      ∀ i < whole.params.length, nameAt sigs i ≠ "value" := by
    constructor
    · intro hall i hi hname
      exact hall _ (List.mem_of_getElem? (h.written i hi)) (writtenAt_eq_value.mpr hname)
    · intro hall name hname hname'
      obtain ⟨i, hi⟩ := List.mem_iff_getElem?.mp hname
      have hlt : i < whole.params.length := by
        simpa using (List.getElem?_eq_some_iff.mp hi).1
      have hsame := Option.some.inj ((h.written i hlt).symm.trans hi)
      exact hall i hlt (writtenAt_eq_value.mp (hsame.trans hname'))
  rw [List.nodup_append, hpairs]
  cases hnames with
  | list => simp
  | key => simpa using fun _ => hvalue

end Signature

/-- **Names of parameters**, in whatever a group of overloads, of any size, is declared as, if no
signature of the group has a name twice.  They are those that are written for the positions of the
group, to which the operator that writes by a key adds `value`.  They are distinct if and only if no
two positions get one name, and none is called as what is added.  That is so if all signatures agree
on names that can be spelled and have no escape mark in front. -/
theorem parameter_names {group : List Member} {sigs : List Signature}
    (hgroup : group.Pairwise Member.Overloads)
    (hsigs : group.map Member.signature? = sigs.map some)
    (hdistinct : ∀ sig ∈ sigs, (sig.params.map (·.name)).Nodup) {s t : Session}
    {merged : MemberGroup} (hrun : (mergeGroup group).exec s = (.ok merged, t)) {decl : OutputDecl}
    (hdecl : merged.DeclaredAs decl) :
    ∃ (whole : Signature) (added : List String), merged.effective.signature? = some whole ∧
      whole.HasNames added decl.header ∧ whole.NamesPositions sigs ∧
      ((whole.writtenNames ++ added).Nodup ↔
        (∀ i j, i < j → j < whole.params.length → ¬ Signature.NamedAlike sigs i j) ∧
          ∀ i < whole.params.length, Signature.nameAt sigs i ∉ added) ∧
      (Signature.NamedPlainly sigs → (∀ sig ∈ sigs, ∀ p ∈ sig.params, p.name ∉ added) →
        (whole.writtenNames ++ added).Nodup) := by
  obtain ⟨whole, hwhole, hpositions⟩ := (mergesGroup_of_exec hgroup hrun).namesPositions hsigs
  obtain ⟨added, hnames⟩ := hdecl.names hwhole
  have hiff := hpositions.nodup_iff hnames
  refine ⟨whole, added, hwhole, hnames, hpositions, hiff, fun hplain hnew => hiff.mpr ⟨?_, ?_⟩⟩
  all_goals obtain ⟨longest, hlongest, hlength⟩ := hpositions.longest.2
  · exact fun i j hij hj =>
      hplain.not_namedAlike hlongest (hdistinct longest hlongest) hij (hlength ▸ hj)
  · intro i hi
    rw [hplain.nameAt_eq hlongest (List.getElem?_eq_getElem (hlength ▸ hi))]
    exact hnew longest hlongest _ (List.getElem_mem _)

/-- Overloads that agree on a name that is taken. -/
theorem parameter_names_methods :
    let overload (params : List Param) : Member :=
      ⟨some "f", .method ⟨[], params, .void⟩ false, false, Span.none⟩
    let short : List Param := [⟨"is", .primitive .string, false, false⟩]
    let long : List Param := [⟨"is", .primitive .string, false, false⟩,
      ⟨"y", .primitive .number, false, false⟩]
    ∃ merged t decl,
      (mergeGroup [overload short, overload long]).exec (.start {} .batch .untyped) =
        (.ok merged, t) ∧
      merged.DeclaredAs decl ∧ decl.header = "external void f(String $is, [num y]);" ∧
      ∃ whole added, merged.effective.signature? = some whole ∧
        whole.HasNames added decl.header ∧ (whole.writtenNames ++ added).Nodup := by
  intro overload short long
  obtain ⟨merged, t, decl, hrun, hdecl, hheader⟩ : ∃ merged t decl,
      (mergeGroup [overload short, overload long]).exec (.start {} .batch .untyped) =
        (.ok merged, t) ∧
      merged.DeclaredAs decl ∧ decl.header = "external void f(String $is, [num y]);" :=
    ⟨_, _, _, Prod.ext rfl rfl,
      .inl ⟨"A", .start {} .batch .untyped, _, _, Prod.ext rfl rfl, List.mem_cons_self⟩,
      by decide +kernel⟩
  let sigs : List Signature := [⟨[], short, .void⟩, ⟨[], long, .void⟩]
  have hgroup : [overload short, overload long].Pairwise Member.Overloads := by
    simp [overload, Member.Overloads, OverloadKey.of?]
  have hsigs : [overload short, overload long].map Member.signature? = sigs.map some := rfl
  have hdistinct : ∀ sig ∈ sigs, (sig.params.map (·.name)).Nodup := by
    simp [sigs, short, long]
  have hnames : ∀ sig ∈ sigs, ∀ (i : Nat) (p : Param), sig.params[i]? = some p →
      ["is", "y"][i]? = some p.name := by
    simp only [sigs, List.forall_mem_cons, List.not_mem_nil, false_imp_iff, implies_true, and_true]
    refine ⟨fun i p hp => ?_, fun i p hp => ?_⟩ <;> rcases i with _ | _ | i <;>
      simp [short, long] at hp ⊢ <;> simp [← hp]
  have hplain : Signature.NamedPlainly sigs :=
    ⟨fun sig hsig other hother i p q hp hq => Option.some.inj
        ((hnames sig hsig i p hp).symm.trans (hnames other hother i q hq)),
      by decide, by decide⟩
  obtain ⟨whole, added, hwhole, hwritten, -, -, hnodup⟩ :=
    parameter_names hgroup hsigs hdistinct hrun hdecl
  refine ⟨merged, t, decl, hrun, hdecl, hheader, whole, added, hwhole, hwritten, hnodup hplain ?_⟩
  intro sig hsig p hp hadded
  have hvalue : ∀ sig ∈ sigs, ∀ p ∈ sig.params, p.name ≠ "value" := by decide
  exact hvalue sig hsig p hp (hwritten.eq_value hadded)

set_option maxRecDepth 2000 in
/-- A parameter whose name is taken, beside one with the name that it is escaped to. -/
theorem parameter_names_escaped :
    let sig : Signature := ⟨[], [⟨"is", .any, false, false⟩, ⟨"$is", .any, false, false⟩], .void⟩
    let decl : OutputDecl := .ofFunction "external void f(dynamic $is, dynamic $is);" "@JS()" []
    generate [⟨"a", "function f(is: any, $is: any): void;"⟩] {} =
        .ok [⟨"a", libraryText "a" [] [⟨decl, []⟩], [], none⟩] ∧
      (sig.params.map (·.name)).Nodup ∧ sig.WrittenIn decl.header ∧ ¬ sig.writtenNames.Nodup := by
  intro sig decl
  refine ⟨?_, by decide, ?_, by decide +kernel⟩
  · let file : SourceFile := ⟨"a", "function f(is: any, $is: any): void;"⟩
    let parameter (name : String) (start : Nat) : Source.ParamNode :=
      ⟨.name name, some ⟨⟨start, start + 3⟩, .keyword .any⟩, false, false, false⟩
    let program : Source.Program := ⟨[.declaration false (.function ⟨⟨0, 36⟩, some "f",
      ⟨[], [parameter "is" 15, parameter "$is" 25], none, some ⟨⟨31, 35⟩, .keyword .void⟩⟩,
      none⟩)]⟩
    have hread : file.read = .ok program :=
      SourceFile.read_of_parse (by cbv) (by cbv) (by decide +kernel)
    have hstem : moduleStem file.path = "a" := (moduleStem_of_fileName (by cbv)).trans (by decide)
    exact generate_singleton hread hstem (by decide +kernel)
  · have hwrites : ∀ name place, WritesParam (⟨name, .any, false, false⟩, place)
        (false, "dynamic " ++ SignatureText.paramName place ⟨name, .any, false, false⟩) :=
      fun name place => ⟨rfl, "dynamic", .start {} .batch .untyped, _, Prod.ext rfl rfl, rfl⟩
    exact ⟨_, .cons (hwrites "is" 0) (.cons (hwrites "$is" 1) .nil), .function "" "f" "void" ""⟩

end Interop
