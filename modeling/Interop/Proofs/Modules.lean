import Interop.Generation.Module
import Interop.Proofs.Naming
import Mathlib.Order.Bounds.Basic

/-!
# Names of modules

The paths of two inputs may suggest one name.  The modules are told apart by numbers, which are
chosen so that no name is the stem of another input.

* `freeNumber_not_mem` — the number that is chosen makes a name that is not taken.
* **`moduleNames_nodup`** — the names of the modules of a run are all different.
* `moduleNames_of_nodup` — stems that are all different are the names.
* `NameChosen` — what a module may be called after the modules before it; `nameModules_chosen` says
  that every module of a run is called so.
* **`moduleNames_least`** — a stem is kept the first time and later gets the least number that makes
  a new name.
-/

namespace Interop

/-- A search that has a free number before it finds one. -/
lemma freeNumber_of_free (taken : List String) (stem : String) : ∀ fuel n,
    (∃ k, n ≤ k ∧ k < n + fuel ∧ numberedStem stem k ∉ taken) →
      numberedStem stem (freeNumber taken stem fuel n) ∉ taken
  | 0, n, ⟨k, hle, hlt, _⟩ => by omega
  | fuel + 1, n, ⟨k, hle, hlt, hfree⟩ => by
      simp only [freeNumber, List.contains_iff_mem]
      split_ifs with hn
      · have hne : k ≠ n := by
          rintro rfl
          exact hfree hn
        exact freeNumber_of_free taken stem fuel (n + 1) ⟨k, by omega, by omega, hfree⟩
      · exact hn

/-- Among one more number than there are taken names, one makes a free name. -/
lemma freeNumber_not_mem (taken : List String) (stem : String) :
    numberedStem stem (freeNumber taken stem (taken.length + 1) 2) ∉ taken := by
  obtain ⟨k, hle, hlt, hfree⟩ := Library.exists_free_number ⟨0, "", taken⟩ (stem ++ "_") 2
  exact freeNumber_of_free taken stem _ 2 ⟨k, hle, hlt, Library.contains_eq_false.mp hfree⟩

/-- A name is a stem that was not seen before, or it was not taken. -/
lemma mem_nameModules {name : String} : ∀ {seen taken stems : List String},
    stems ⊆ taken → name ∈ nameModules seen taken stems →
      (name ∈ stems ∧ name ∉ seen) ∨ name ∉ taken
  | _, _, [], _, h => by cases h
  | seen, taken, stem :: rest, hstems, h => by
      have hrest : rest ⊆ taken := fun x hx => hstems (List.mem_cons_of_mem _ hx)
      simp only [nameModules] at h
      split_ifs at h with hseen
      · rcases List.mem_cons.mp h with rfl | h
        · exact Or.inr (freeNumber_not_mem taken stem)
        · rcases mem_nameModules (fun x hx => List.mem_cons_of_mem _ (hrest hx)) h with h | h
          · exact Or.inl ⟨List.mem_cons_of_mem _ h.1, h.2⟩
          · exact Or.inr fun hm => h (List.mem_cons_of_mem _ hm)
      · rcases List.mem_cons.mp h with rfl | h
        · exact Or.inl ⟨List.mem_cons_self, by simpa using hseen⟩
        · rcases mem_nameModules hrest h with h | h
          · exact Or.inl ⟨List.mem_cons_of_mem _ h.1, fun hm => h.2 (List.mem_cons_of_mem _ hm)⟩
          · exact Or.inr h

lemma nameModules_nodup : ∀ {seen taken stems : List String}, stems ⊆ taken →
    (nameModules seen taken stems).Nodup
  | _, _, [], _ => List.nodup_nil
  | seen, taken, stem :: rest, hstems => by
      have hrest : rest ⊆ taken := fun x hx => hstems (List.mem_cons_of_mem _ hx)
      simp only [nameModules]
      split_ifs with hseen
      · have hfree := freeNumber_not_mem taken stem
        have hrest' : rest ⊆ numberedStem stem (freeNumber taken stem (taken.length + 1) 2) ::
            taken := fun x hx => List.mem_cons_of_mem _ (hrest hx)
        refine List.nodup_cons.mpr ⟨fun h => ?_, nameModules_nodup hrest'⟩
        rcases mem_nameModules hrest' h with h | h
        · exact hfree (hrest h.1)
        · exact h List.mem_cons_self
      · refine List.nodup_cons.mpr ⟨fun h => ?_, nameModules_nodup hrest⟩
        rcases mem_nameModules hrest h with h | h
        · exact h.2 List.mem_cons_self
        · exact h (hstems List.mem_cons_self)

/-- **Modules have different names**, whatever the paths are. -/
theorem moduleNames_nodup (paths : List String) : (moduleNames paths).Nodup :=
  nameModules_nodup fun _ h => h

lemma nameModules_of_nodup : ∀ {seen stems : List String} (taken : List String), stems.Nodup →
    (∀ stem ∈ stems, stem ∉ seen) → nameModules seen taken stems = stems
  | _, [], _, _, _ => rfl
  | seen, stem :: rest, taken, hnodup, hseen => by
      obtain ⟨hnew, hrest⟩ := List.nodup_cons.mp hnodup
      have hstem : seen.contains stem = false := by simpa using hseen stem List.mem_cons_self
      simp only [nameModules, hstem, Bool.false_eq_true, if_false]
      rw [nameModules_of_nodup taken hrest]
      intro other hother hm
      rcases List.mem_cons.mp hm with rfl | hm
      · exact hnew hother
      · exact hseen other (List.mem_cons_of_mem _ hother) hm

/-- Stems that are all different are the names of the modules. -/
lemma moduleNames_of_nodup {paths : List String} (h : (paths.map moduleStem).Nodup) :
    moduleNames paths = paths.map moduleStem :=
  nameModules_of_nodup _ h fun _ _ hm => by cases hm

/-- Stems that are known and all different are the names. -/
lemma moduleNames_of_stems {paths stems : List String} (hstems : paths.map moduleStem = stems)
    (hnodup : stems.Nodup) : moduleNames paths = stems := by
  rw [moduleNames_of_nodup (hstems ▸ hnodup), hstems]

lemma length_nameModules : ∀ (seen taken stems : List String),
    (nameModules seen taken stems).length = stems.length
  | _, _, [] => rfl
  | seen, taken, stem :: rest => by
      simp only [nameModules]
      split_ifs <;> rw [List.length_cons, length_nameModules, List.length_cons]

lemma length_moduleNames (paths : List String) : (moduleNames paths).length = paths.length := by
  rw [moduleNames, length_nameModules, List.length_map]

/-! ## Which number is chosen -/

lemma le_freeNumber (taken : List String) (stem : String) : ∀ fuel n,
    n ≤ freeNumber taken stem fuel n
  | 0, _ => le_rfl
  | fuel + 1, n => by
      simp only [freeNumber]
      split_ifs
      · exact (Nat.le_succ n).trans (le_freeNumber taken stem fuel (n + 1))
      · exact le_rfl

/-- A search passes over numbers only where they make names that are taken. -/
lemma mem_of_lt_freeNumber {taken : List String} {stem : String} {k : Nat} : ∀ {fuel n},
    n ≤ k → k < freeNumber taken stem fuel n → numberedStem stem k ∈ taken
  | 0, n, hle, hlt => absurd hlt (Nat.not_lt.mpr hle)
  | fuel + 1, n, hle, hlt => by
      simp only [freeNumber, List.contains_iff_mem] at hlt
      split_ifs at hlt with hn
      · rcases Nat.eq_or_lt_of_le hle with rfl | hlt'
        · exact hn
        · exact mem_of_lt_freeNumber hlt' hlt
      · omega

/-- The number that is chosen is the least from two on that makes a name which is not taken. -/
lemma isLeast_freeNumber (taken : List String) (stem : String) :
    IsLeast {n | 2 ≤ n ∧ numberedStem stem n ∉ taken}
      (freeNumber taken stem (taken.length + 1) 2) := by
  refine ⟨⟨le_freeNumber taken stem _ 2, freeNumber_not_mem taken stem⟩, fun k hk => ?_⟩
  by_contra hlt
  exact hk.2 (mem_of_lt_freeNumber hk.1 (Nat.lt_of_not_le hlt))

/-- **What a module may be called**, in a run with the given stems and after modules with the stems
`before` and the names `given`: its stem, if that is new, and otherwise its stem with the least
number from two on that makes neither a stem of the run nor a name that was given. -/
def NameChosen (stems before given : List String) (stem name : String) : Prop :=
  (stem ∉ before ∧ name = stem) ∨
    (stem ∈ before ∧ ∃ n, name = numberedStem stem n ∧
      IsLeast {n | 2 ≤ n ∧ numberedStem stem n ∉ stems ∧ numberedStem stem n ∉ given} n)

lemma NameChosen.congr {stems before before' given given' : List String} {stem name : String}
    (h : NameChosen stems before given stem name) (hbefore : ∀ s, s ∈ before ↔ s ∈ before')
    (hgiven : ∀ s, s ∈ given ↔ s ∈ given') : NameChosen stems before' given' stem name := by
  simpa only [NameChosen, hbefore, hgiven] using h

/-- One module is named: its stem has been seen from then on, and its name is taken. -/
lemma nameModules_cons (seen : List String) {taken : List String} {stem : String}
    (hstem : stem ∈ taken) (rest : List String) : ∃ name seen' taken',
      nameModules seen taken (stem :: rest) = name :: nameModules seen' taken' rest ∧
      ((stem ∉ seen ∧ name = stem) ∨ (stem ∈ seen ∧ ∃ n, name = numberedStem stem n ∧
        IsLeast {n | 2 ≤ n ∧ numberedStem stem n ∉ taken} n)) ∧
      (∀ s, s ∈ seen' ↔ s ∈ seen ∨ s = stem) ∧ ∀ s, s ∈ taken' ↔ s ∈ taken ∨ s = name := by
  simp only [nameModules]
  split_ifs with hseen
  · rw [List.contains_iff_mem] at hseen
    refine ⟨_, seen, _, rfl, Or.inr ⟨hseen, _, rfl, isLeast_freeNumber taken stem⟩, ?_, ?_⟩
    · exact fun s => ⟨Or.inl, Or.rec id fun h => h ▸ hseen⟩
    · exact fun s => List.mem_cons.trans or_comm
  · rw [List.contains_iff_mem] at hseen
    refine ⟨stem, _, taken, rfl, Or.inl ⟨hseen, rfl⟩, ?_, ?_⟩
    · exact fun s => List.mem_cons.trans or_comm
    · exact fun s => ⟨Or.inl, Or.rec id fun h => h ▸ hstem⟩

/-- Every module is called after those before it.  What is taken at any time are the stems of the
run and the names that were given, which is the invariant of the induction along the stems. -/
lemma nameModules_chosen {all : List String} :
    ∀ (seen : List String) {taken given stems : List String},
    (∀ s, s ∈ taken ↔ s ∈ all ∨ s ∈ given) → stems ⊆ all → ∀ {i stem}, stems[i]? = some stem →
      ∃ name, (nameModules seen taken stems)[i]? = some name ∧
        NameChosen all (seen ++ stems.take i) (given ++ (nameModules seen taken stems).take i)
          stem name
  | _, _, _, [], _, _, i, _, h => by simp at h
  | seen, taken, given, stem :: rest, htaken, hall, i, _, h => by
      have hstem : stem ∈ taken := (htaken stem).mpr (Or.inl (hall List.mem_cons_self))
      have hrest : rest ⊆ all := fun s hs => hall (List.mem_cons_of_mem _ hs)
      obtain ⟨name, seen', taken', heq, hname, hseen', htaken'⟩ :=
        nameModules_cons seen hstem rest
      rw [heq]
      cases i with
      | zero =>
          obtain rfl : stem = _ := by simpa using h
          refine ⟨name, rfl, ?_⟩
          simpa [NameChosen, htaken, not_or] using hname
      | succ i =>
          have hinv : ∀ s, s ∈ taken' ↔ s ∈ all ∨ s ∈ given ++ [name] := by
            intro s
            rw [htaken', htaken, List.mem_append, List.mem_singleton, or_assoc]
          obtain ⟨other, hother, hchosen⟩ :=
            nameModules_chosen seen' hinv hrest (by simpa using h)
          refine ⟨other, hother, hchosen.congr (fun s => ?_) fun s => by simp⟩
          rw [List.mem_append, hseen', List.take_succ_cons, List.mem_append, List.mem_cons,
            or_assoc]

/-- The modules of a run are called one after another. -/
lemma moduleNames_chosen {paths : List String} {i : Nat} {stem : String}
    (h : (paths.map moduleStem)[i]? = some stem) :
    ∃ name, (moduleNames paths)[i]? = some name ∧
      NameChosen (paths.map moduleStem) ((paths.map moduleStem).take i)
        ((moduleNames paths).take i) stem name := by
  have hinv : ∀ s, s ∈ paths.map moduleStem ↔
      s ∈ paths.map moduleStem ∨ s ∈ ([] : List String) := by simp
  obtain ⟨name, hname, hchosen⟩ := nameModules_chosen [] hinv (List.Subset.refl _) h
  exact ⟨name, hname, hchosen.congr (by simp) (by simp [moduleNames])⟩

/-- Every stem is the name of the first module that has it. -/
lemma mem_moduleNames_of_stem {paths : List String} {stem : String}
    (h : stem ∈ paths.map moduleStem) : stem ∈ moduleNames paths := by
  obtain ⟨before, after, hsplit, hnew⟩ := List.eq_append_cons_of_mem h
  have hat : (paths.map moduleStem)[before.length]? = some stem := by simp [hsplit]
  obtain ⟨name, hname, ⟨-, rfl⟩ | ⟨hbefore, -⟩⟩ := moduleNames_chosen hat
  · exact List.mem_of_getElem? hname
  · exact absurd hbefore (by simpa [hsplit] using hnew)

lemma numberedStem_injective (stem : String) : Function.Injective (numberedStem stem) :=
  Library.numbered_injective (stem ++ "_")

lemma numberedStem_ne (stem : String) (n : Nat) : numberedStem stem n ≠ stem := by
  intro h
  have hlen := congrArg String.length h
  simp only [numberedStem, String.length_append] at hlen
  have : "_".length = 1 := rfl
  omega

/-- The number of a module is small: each number below it makes the name of another module. -/
lemma NameChosen.number_le {paths : List String} {i n : Nat} {stem : String}
    (hname : (moduleNames paths)[i]? = some (numberedStem stem n))
    (h : NameChosen (paths.map moduleStem) ((paths.map moduleStem).take i)
      ((moduleNames paths).take i) stem (numberedStem stem n)) : n ≤ paths.length + 1 := by
  rcases h with ⟨-, h⟩ | ⟨-, m, h, hleast⟩
  · exact absurd h (numberedStem_ne stem n)
  obtain rfl := numberedStem_injective stem h
  have hnodup : ((List.range' 2 (n - 1)).map (numberedStem stem)).Nodup :=
    (List.nodup_range' ..).map (numberedStem_injective stem)
  have hsub : (List.range' 2 (n - 1)).map (numberedStem stem) ⊆ moduleNames paths := by
    intro other hother
    obtain ⟨k, hk, rfl⟩ := List.mem_map.mp hother
    rw [List.mem_range'_1] at hk
    rcases Nat.lt_or_eq_of_le (show k ≤ n by omega) with hlt | rfl
    · by_contra hnot
      have hfree : n ≤ k := hleast.2 ⟨hk.1, fun hs => hnot (mem_moduleNames_of_stem hs),
        fun hg => hnot (List.mem_of_mem_take hg)⟩
      omega
    · exact List.mem_of_getElem? hname
  have hlen := (List.subperm_of_subset hnodup hsub).length_le
  rw [List.length_map, List.length_range', length_moduleNames] at hlen
  omega

/-- **Modules are told apart by the least numbers.**  There is one name for every path, and no two
are the same.  The first module with a stem is called by the stem; each later one has the stem with
the least number from two on that makes neither the stem of any path nor a name given before.  The
number is at most one more than there are paths, so the search for it ends. -/
theorem moduleNames_least (paths : List String) :
    (moduleNames paths).length = paths.length ∧ (moduleNames paths).Nodup ∧
      ∀ i : Fin paths.length, ∃ name, (moduleNames paths)[i.val]? = some name ∧
        NameChosen (paths.map moduleStem) ((paths.map moduleStem).take i)
          ((moduleNames paths).take i) (moduleStem paths[i]) name ∧
        ∀ n, name = numberedStem (moduleStem paths[i]) n → n ≤ paths.length + 1 := by
  refine ⟨length_moduleNames paths, moduleNames_nodup paths, fun i => ?_⟩
  have hstem : (paths.map moduleStem)[i.val]? = some (moduleStem paths[i]) := by simp
  obtain ⟨name, hname, hchosen⟩ := moduleNames_chosen hstem
  refine ⟨name, hname, hchosen, ?_⟩
  rintro n rfl
  exact hchosen.number_le hname

/-- Numbers pass over stems, also over those that stand later, and over names given before. -/
example : nameModules [] ["x", "x_3", "x", "x_2", "x", "x_2"] ["x", "x_3", "x", "x_2", "x", "x_2"] =
    ["x", "x_3", "x_4", "x_2", "x_5", "x_2_2"] := by
  decide +kernel

end Interop
