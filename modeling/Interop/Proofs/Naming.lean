import Interop.Name.Library
import Mathlib.Data.List.Nodup
import Mathlib.Data.List.Perm.Subperm
import Mathlib.Logic.Function.Basic
import Mathlib.Tactic.Lemma

/-!
# Names given one after another

A run asks one registry for names, in any order and in any of its libraries.  This file shows what
holds after every sequence of such requests.

* `Library.firstFree_not_mem` — the name chosen for a new path is not in use.  The last resort of
  the search, a numbered name, is found by counting: among one more number than there are names in
  use, one is free.
* `Naming.Consistent` — the invariant that ties the records of a registry to the names in use.
* **`Naming.run_consistent`** — the invariant holds after every run, and what was recorded once is
  the answer from then on.
-/

namespace Interop

/-! ## The name of a new path -/

namespace Library

lemma contains_eq_true {library : Library} {name : String} :
    library.contains name = true ↔ name ∈ library.used := by
  simp [contains]

lemma contains_eq_false {library : Library} {name : String} :
    library.contains name = false ↔ name ∉ library.used := by
  simp [contains]

@[simp] lemma id_insert (library : Library) (name : String) :
    (library.insert name).id = library.id := by
  unfold insert
  split_ifs <;> rfl

lemma mem_used_insert {library : Library} {name other : String} :
    other ∈ (library.insert name).used ↔ other ∈ library.used ∨ other = name := by
  unfold insert
  split_ifs with h
  · rw [contains_eq_true] at h
    constructor
    · intro ho
      exact Or.inl ho
    · rintro (ho | rfl)
      · exact ho
      · exact h
  · simp

/-- Different numbers make different names of one base. -/
lemma numbered_injective (base : String) :
    Function.Injective fun n : Nat => base ++ toString n := by
  intro m n h
  have hs : toString m = toString n := (String.append_right_inj base).mp h
  have hd : Nat.toDigits 10 m = Nat.toDigits 10 n := by
    simpa using congrArg String.toList hs
  simpa using congrArg (fun ds => Nat.ofDigitChars 10 ds 0) hd

/-- Among one more number than there are names in use, some number makes a free name. -/
lemma exists_free_number (library : Library) (base : String) (n : Nat) :
    ∃ k, n ≤ k ∧ k < n + (library.size + 1) ∧ library.contains (base ++ toString k) = false := by
  by_contra hall
  push Not at hall
  -- if every number were taken, the names in use would be more than they are
  let names := (List.range' n (library.size + 1)).map fun k => base ++ toString k
  have hnodup : names.Nodup := (List.nodup_range' ..).map (numbered_injective base)
  have hsub : names ⊆ library.used := by
    intro name hname
    obtain ⟨k, hk, rfl⟩ := List.mem_map.mp hname
    rw [List.mem_range'_1] at hk
    exact contains_eq_true.mp (Bool.not_eq_false _ ▸ hall k hk.1 hk.2)
  have hlen := (List.subperm_of_subset hnodup hsub).length_le
  simp only [names, List.length_map, List.length_range', size] at hlen
  omega

/-- A search that has a free number before it finds one. -/
lemma numbered_of_free (library : Library) (base : String) : ∀ fuel n,
    (∃ k, n ≤ k ∧ k < n + fuel ∧ library.contains (base ++ toString k) = false) →
      ∃ k, n ≤ k ∧ k < n + fuel ∧ library.contains (base ++ toString k) = false ∧
        library.numbered base fuel n = base ++ toString k
  | 0, n, ⟨k, hle, hlt, _⟩ => by omega
  | fuel + 1, n, ⟨k, hle, hlt, hfree⟩ => by
      unfold numbered
      by_cases hn : library.contains (base ++ toString n) = true
      · have hne : k ≠ n := by
          rintro rfl
          rw [hn] at hfree
          exact Bool.noConfusion hfree
        obtain ⟨j, hj1, hj2, hj3, hj4⟩ :=
          numbered_of_free library base fuel (n + 1) ⟨k, by omega, by omega, hfree⟩
        refine ⟨j, by omega, by omega, hj3, ?_⟩
        simp only [hn, if_true]
        exact hj4
      · refine ⟨n, Nat.le_refl n, by omega, by simpa using hn, ?_⟩
        simp only [hn, if_false, Bool.false_eq_true]

/-- **The numbered fallback.**  The number is at most two more than the count of the names in use,
so 32 bits hold it wherever fewer than `2 ^ 32 - 2` names are. -/
theorem numbered_free (library : Library) (base : String) :
    ∃ k, 2 ≤ k ∧ k ≤ library.size + 2 ∧ base ++ toString k ∉ library.used ∧
      library.numbered base (library.size + 1) 2 = base ++ toString k := by
  obtain ⟨k, hle, hlt, hfree, hk⟩ := numbered_of_free library base (library.size + 1) 2
    (exists_free_number library base 2)
  exact ⟨k, hle, by omega, contains_eq_false.mp hfree, hk⟩

/-- The name chosen for a path is not in use yet. -/
theorem firstFree_not_mem (library : Library) (path : DeclPath) :
    library.firstFree path ∉ library.used := by
  unfold firstFree
  split
  · rename_i name hname
    have hfree := List.find?_some hname
    simpa [contains] using hfree
  · dsimp only
    split_ifs with hbase
    · obtain ⟨k, _, _, hfree, hk⟩ := numbered_free library (fallback path)
      rw [hk]
      exact hfree
    · simpa [contains] using hbase

end Library

/-! ## One request -/

namespace Registry

variable {registry : Registry} {path : DeclPath} {library : Library}

lemma allocate_of_find? {record : NameRecord} (h : registry.find? path = some record) :
    registry.allocate path library = (record.name, registry, library) := by
  simp [allocate, h]

lemma allocate_of_new (h : registry.find? path = none) :
    registry.allocate path library =
      (library.firstFree path,
        ⟨registry.records ++ [(path, ⟨library.firstFree path, library.id⟩)]⟩,
        library.insert (library.firstFree path)) := by
  simp [allocate, h]

/-- A new record answers for its own path, and the others answer as before. -/
lemma find?_append (registry : Registry) (path q : DeclPath) (record : NameRecord)
    (h : registry.find? path = none) :
    (⟨registry.records ++ [(path, record)]⟩ : Registry).find? q =
      if q = path then some record else registry.find? q := by
  simp only [find?, List.lookup_append] at h ⊢
  split_ifs with hq
  · subst hq
    simp [h]
  · have hne : (q == path) = false := by simpa using hq
    simp [List.lookup_cons, hne]

/-- After a request its path has a record, and every record from before is still there. -/
lemma find?_allocate (registry : Registry) (path : DeclPath) (library : Library) :
    (∃ record, (registry.allocate path library).2.1.find? path = some record) ∧
      ∀ q record, registry.find? q = some record →
        (registry.allocate path library).2.1.find? q = some record := by
  cases h : registry.find? path with
  | some record =>
      rw [allocate_of_find? h]
      exact ⟨⟨record, h⟩, fun _ _ hq => hq⟩
  | none =>
      rw [allocate_of_new h]
      refine ⟨⟨_, by rw [find?_append _ _ _ _ h, if_pos rfl]⟩, ?_⟩
      intro q record hq
      have hne : q ≠ path := by
        rintro rfl
        rw [h] at hq
        cases hq
      rw [find?_append _ _ _ _ h, if_neg hne, hq]

end Registry

/-! ## Runs of requests -/

/-- A registry and the libraries it gives names in. -/
structure Naming (ι : Type) where
  registry : Registry
  libraries : ι → Library

namespace Naming

variable {ι : Type}

/-- No path has a name yet. -/
def start (libraries : ι → Library) : Naming ι := ⟨{}, libraries⟩

/-- **The invariant of naming.**  `seed` holds the libraries before anything was named in them. -/
structure Consistent (seed : ι → Library) (s : Naming ι) : Prop where
  /-- A library stays the same library. -/
  id_eq : ∀ i, (s.libraries i).id = (seed i).id
  /-- A recorded name is in use in the library of its record, and was not from the start. -/
  record_used : ∀ path record, s.registry.find? path = some record →
    ∃ i, record.library = (seed i).id ∧ record.name ∈ (s.libraries i).used ∧
      record.name ∉ (seed i).used
  /-- Two paths that are named in one library have different names. -/
  record_ne : ∀ p q r t, s.registry.find? p = some r → s.registry.find? q = some t → p ≠ q →
    r.library = t.library → r.name ≠ t.name
  /-- The names in use are those from the start and the recorded ones. -/
  mem_used_iff : ∀ i name, name ∈ (s.libraries i).used ↔ name ∈ (seed i).used ∨
    ∃ path record, s.registry.find? path = some record ∧ record.library = (seed i).id ∧
      record.name = name

lemma consistent_start (libraries : ι → Library) : (start libraries).Consistent libraries where
  id_eq _ := rfl
  record_used _ _ h := by simp [start, Registry.find?] at h
  record_ne _ _ _ _ h := by simp [start, Registry.find?] at h
  mem_used_iff i name := by simp [start, Registry.find?]

variable [DecidableEq ι]

/-- The name of a path in one of the libraries, and what is left behind. -/
def allocate (s : Naming ι) (path : DeclPath) (i : ι) : String × Naming ι :=
  let (name, registry, library) := s.registry.allocate path (s.libraries i)
  (name, ⟨registry, Function.update s.libraries i library⟩)

/-- What is left behind by requests, each of a path in a library, one after another. -/
def run (s : Naming ι) (requests : List (DeclPath × ι)) : Naming ι :=
  requests.foldl (fun s request => (s.allocate request.1 request.2).2) s

/-! ### What one request does -/

/-- What a path was named in a library, once it has a name there. -/
def named (s : Naming ι) (path : DeclPath) (i : ι) (name : String) : Naming ι :=
  ⟨⟨s.registry.records ++ [(path, ⟨name, (s.libraries i).id⟩)]⟩,
    Function.update s.libraries i ((s.libraries i).insert name)⟩

variable {s : Naming ι} {path : DeclPath}

lemma allocate_of_find? {record : NameRecord} (h : s.registry.find? path = some record) (i : ι) :
    s.allocate path i = (record.name, s) := by
  simp [allocate, Registry.allocate_of_find? h, Function.update_eq_self]

lemma allocate_of_new (h : s.registry.find? path = none) (i : ι) :
    s.allocate path i =
      ((s.libraries i).firstFree path, s.named path i ((s.libraries i).firstFree path)) := by
  simp [allocate, named, Registry.allocate_of_new h]

lemma find?_named (h : s.registry.find? path = none) (i : ι) (name : String) (q : DeclPath) :
    (s.named path i name).registry.find? q =
      if q = path then some ⟨name, (s.libraries i).id⟩ else s.registry.find? q :=
  Registry.find?_append s.registry path q _ h

lemma id_named (path : DeclPath) (i j : ι) (name : String) :
    ((s.named path i name).libraries j).id = (s.libraries j).id := by
  by_cases hj : j = i
  · subst hj
    simp [named]
  · simp [named, hj]

lemma mem_used_named (path : DeclPath) (i j : ι) (name other : String) :
    other ∈ ((s.named path i name).libraries j).used ↔
      other ∈ (s.libraries j).used ∨ (j = i ∧ other = name) := by
  by_cases hj : j = i
  · subst hj
    simp [named, Library.mem_used_insert]
  · simp [named, hj]

/-- A record stays as it is, whatever is named next. -/
lemma find?_allocate {record : NameRecord} (h : s.registry.find? path = some record)
    (q : DeclPath) (i : ι) : (s.allocate q i).2.registry.find? path = some record :=
  (s.registry.find?_allocate q (s.libraries i)).2 path record h

lemma find?_run {record : NameRecord} : ∀ (requests : List (DeclPath × ι)) (s : Naming ι),
    s.registry.find? path = some record → (s.run requests).registry.find? path = some record
  | [], _, h => h
  | (q, i) :: rest, s, h => find?_run rest (s.allocate q i).2 (find?_allocate h q i)

/-! ### The invariant along a run -/

variable {seed : ι → Library}

/-- A fresh name for a new path keeps the invariant: no record of the library has it, and no other
library is touched. -/
lemma Consistent.named (distinct : Function.Injective fun i => (seed i).id)
    (hs : s.Consistent seed) (h : s.registry.find? path = none) {i : ι} {name : String}
    (hfresh : name ∉ (s.libraries i).used) : (s.named path i name).Consistent seed := by
  have hseed : name ∉ (seed i).used := fun hm => hfresh ((hs.mem_used_iff i name).mpr (Or.inl hm))
  have hrecord : ∀ q r, s.registry.find? q = some r → r.library = (seed i).id → r.name ≠ name := by
    intro q r hq hl hn
    exact hfresh ((hs.mem_used_iff i name).mpr (Or.inr ⟨q, r, hq, hl, hn⟩))
  refine ⟨?_, ?_, ?_, ?_⟩
  · intro j
    rw [id_named]
    exact hs.id_eq j
  · intro q r hq
    rw [find?_named h] at hq
    split_ifs at hq with hqp
    · obtain rfl := Option.some.inj hq
      exact ⟨i, hs.id_eq i, (mem_used_named path i i name name).mpr (Or.inr ⟨rfl, rfl⟩), hseed⟩
    · obtain ⟨j, hl, hu, hn⟩ := hs.record_used q r hq
      exact ⟨j, hl, (mem_used_named path i j name r.name).mpr (Or.inl hu), hn⟩
  · intro p q r t hp hq hne hl
    rw [find?_named h] at hp hq
    split_ifs at hp with hpp <;> split_ifs at hq with hqp
    · exact absurd (hpp.trans hqp.symm) hne
    · obtain rfl := Option.some.inj hp
      exact (hrecord q t hq (hl.symm.trans (hs.id_eq i))).symm
    · obtain rfl := Option.some.inj hq
      exact hrecord p r hp (hl.trans (hs.id_eq i))
    · exact hs.record_ne p q r t hp hq hne hl
  · intro j other
    rw [mem_used_named, hs.mem_used_iff j other]
    constructor
    · rintro ((hm | ⟨q, r, hq, hl, hn⟩) | ⟨rfl, rfl⟩)
      · exact Or.inl hm
      · have hqp : q ≠ path := by
          rintro rfl
          rw [h] at hq
          cases hq
        exact Or.inr ⟨q, r, by rw [find?_named h, if_neg hqp, hq], hl, hn⟩
      · exact Or.inr ⟨path, ⟨other, (s.libraries j).id⟩, by rw [find?_named h, if_pos rfl],
          hs.id_eq j, rfl⟩
    · rintro (hm | ⟨q, r, hq, hl, hn⟩)
      · exact Or.inl (Or.inl hm)
      · rw [find?_named h] at hq
        split_ifs at hq with hqp
        · obtain rfl := Option.some.inj hq
          exact Or.inr ⟨distinct (hl.symm.trans (hs.id_eq i)), hn.symm⟩
        · exact Or.inl (Or.inr ⟨q, r, hq, hl, hn⟩)

/-- **One request keeps the invariant.** -/
theorem Consistent.allocate (distinct : Function.Injective fun i => (seed i).id)
    (hs : s.Consistent seed) (path : DeclPath) (i : ι) : (s.allocate path i).2.Consistent seed := by
  cases h : s.registry.find? path with
  | some record => rw [allocate_of_find? h]; exact hs
  | none => rw [allocate_of_new h]; exact hs.named distinct h (Library.firstFree_not_mem _ _)

theorem Consistent.run (distinct : Function.Injective fun i => (seed i).id) :
    ∀ (requests : List (DeclPath × ι)) {s : Naming ι}, s.Consistent seed →
      (s.run requests).Consistent seed
  | [], _, hs => hs
  | (path, i) :: rest, _, hs => Consistent.run distinct rest (hs.allocate distinct path i)

/-- **Names are given once and for all, and never twice in a library.**  After any requests, the
records and the names in use fit together; and what is recorded then is recorded ever after, answers
every later request of its path in any library, and such a request changes nothing. -/
theorem run_consistent (libraries : ι → Library)
    (distinct : Function.Injective fun i => (libraries i).id) (requests : List (DeclPath × ι)) :
    let s := (start libraries).run requests
    s.Consistent libraries ∧
      ∀ path record, s.registry.find? path = some record → ∀ later,
        (s.run later).registry.find? path = some record ∧
          ∀ i, (s.run later).allocate path i = (record.name, s.run later) := by
  intro s
  refine ⟨(consistent_start libraries).run distinct requests, ?_⟩
  intro path record h later
  have hlater := find?_run later s h
  exact ⟨hlater, fun i => allocate_of_find? hlater i⟩

/-- Two libraries, one of them with the core names.  The suffixes of `a_b.c` and `a.b_c` are spelled
alike, and `List` is a core name. -/
theorem run_consistent_two_libraries :
    let libraries : Bool → Library :=
      fun core => if core then .withCoreNames 1 "core" else ⟨0, "plain", []⟩
    let s := (start libraries).run
      [(⟨["m", "a_b", "c"], .type⟩, false), (⟨["m", "c"], .type⟩, false),
        (⟨["m", "a", "b_c"], .type⟩, false), (⟨["b", "c"], .type⟩, false),
        (⟨["m", "List"], .type⟩, true)]
    (Function.Injective fun core => (libraries core).id) ∧
      s.registry.records.map (·.2.name) = ["c", "m_c", "b_c", "c2", "m_List"] ∧
      s.Consistent libraries ∧
      ∀ path record, s.registry.find? path = some record → ∀ later,
        (s.run later).registry.find? path = some record ∧
          ∀ i, (s.run later).allocate path i = (record.name, s.run later) := by
  intro libraries s
  have distinct : Function.Injective fun core => (libraries core).id := by
    intro a b
    cases a <;> cases b <;> decide
  exact ⟨distinct, by decide +kernel, run_consistent libraries distinct _⟩

end Naming

end Interop
