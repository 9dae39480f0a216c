import Interop.Proofs.Renumbering.Preparation
import Mathlib

/-!
# The order of the inputs

The inputs of a run may come in any order.  If their modules have different names, none is merged
and no two declare types of one name, each input becomes the same library, whatever stands before
it.

* `Reordered.units` — two runs over the same files write the same libraries.
* `exists_places` — a permutation of a list permutes its places.
* `placeFiles_reordered` — inputs in another order are the files of such runs.
* **`generate_perm`** — the libraries of a run do not depend on the order of its inputs.
-/

namespace Interop

open Source

/-! ## Two prepared runs -/

/-- Where diagnostics pointed before a library is written does not matter. -/
lemma writeLibrary_pointAt {may : Failure → Prop} {s : Session} (hs : s.Settled may) (span : Span)
    (library : Nat) (name : String) (files : List CollectedFile) :
    ((writeLibrary library name files).run (s.pointAt span)).1 =
      ((writeLibrary library name files).run s).1 :=
  writeLibrary_peer (t := s.pointAt span) hs ⟨rfl, rfl, rfl⟩ name files

namespace Reordered

variable {σ : Equiv.Perm Nat} {files files' : List ReadFile} (h : Reordered σ files files')
  (hnumbered : Numbered files) (hnumbered' : Numbered files') {options : GenerationOptions}
  {session session' : Session}
  (hprepare : Session.prepare (collect files).1 options (libraryPlans files) = .ok session)
  (hprepare' : Session.prepare (collect files').1 options (libraryPlans files') = .ok session')
include h hnumbered hnumbered' hprepare hprepare'

/-- **Two runs over the same files write the same libraries**, each in the place of its file. -/
lemma units (i : Nat) : ((writeLibraries 0 (libraryPlans files')).run session').1[σ i]? =
    ((writeLibraries 0 (libraryPlans files)).run session).1[i]? := by
  have hsession := prepare_onePerFile h.distinguished hnumbered hprepare
  have hsession' := prepare_onePerFile h.distinguished_right hnumbered' hprepare'
  let r := h.twins hsession hsession' hnumbered hnumbered'
  have halike : r.Alike [] (session.pointAt .none) (session'.pointAt .none) :=
    .unused [] (prepare_unused hprepare) (prepare_unused hprepare') .none
  rw [hsession.ready.writeLibraries_eq, hsession'.ready.writeLibraries_eq]
  simp only [List.getElem?_map, List.getElem?_zipIdx, Nat.zero_add, Option.map_map]
  cases hf : files[i]? with
  | none =>
      have hf' := h.getElem? hnumbered hnumbered' i
      rw [hf, Option.map_none] at hf'
      rw [getElem?_libraryPlans_none h.distinguished.modules hf,
        getElem?_libraryPlans_none h.distinguished_right.modules hf']
      rfl
  | some f =>
      have hf' := h.getElem? hnumbered hnumbered' i
      rw [hf, Option.map_some] at hf'
      obtain ⟨g, hg, hplan⟩ := exists_libraryPlan h.distinguished.modules hf
      obtain ⟨g', hg', hplan'⟩ := exists_libraryPlan h.distinguished_right.modules hf'
      have hi := hnumbered.file_eq hf
      obtain ⟨hpath, hfile, hpath', hfile', hnotes, -⟩ := h.define hg (hi ▸ hg')
      have hfiles : List.Forall₂ r.Files [g] [g'] :=
        .cons ⟨hpath'.trans hpath.symm, hfile'.trans (congrArg σ hfile.symm), hnotes⟩ .nil
      obtain ⟨hsame, -⟩ := Twins.writeLibrary_agree hfiles halike hsession.ready.entries i
        f.place.module
      rw [hplan, hplan']
      refine congrArg some ?_
      rw [writeLibrary_pointAt hsession.ready.settled_any,
        writeLibrary_pointAt hsession'.ready.settled_any] at hsame
      exact hsame

end Reordered

/-! ## Files in another order -/

/-- A permutation of places, behind one that stays first. -/
def placesBehind (σ : Equiv.Perm Nat) : Equiv.Perm Nat where
  toFun
    | 0 => 0
    | i + 1 => σ i + 1
  invFun
    | 0 => 0
    | i + 1 => σ.symm i + 1
  left_inv i := by cases i <;> simp
  right_inv i := by cases i <;> simp

/-- A permutation of a list permutes its places. -/
lemma exists_places {α : Type} {xs ys : List α} (h : xs.Perm ys) :
    ∃ σ : Equiv.Perm Nat, (∀ i, ys[σ i]? = xs[i]?) ∧ ∀ i, xs.length ≤ i → σ i = i := by
  induction h with
  | nil => exact ⟨Equiv.refl Nat, fun _ => rfl, fun _ _ => rfl⟩
  | cons x _ ih =>
      obtain ⟨σ, hσ, hrest⟩ := ih
      refine ⟨placesBehind σ, fun i => ?_, fun i hi => ?_⟩
      · cases i with
        | zero => rfl
        | succ i => exact hσ i
      · cases i with
        | zero => cases hi
        | succ i => exact congrArg (· + 1) (hrest i (Nat.le_of_succ_le_succ hi))
  | swap x y l =>
      refine ⟨Equiv.swap 0 1, fun i => ?_, fun i hi => ?_⟩
      · match i with
        | 0 => simp
        | 1 => simp
        | i + 2 => rw [Equiv.swap_apply_of_ne_of_ne (by omega) (by omega)]; rfl
      · simp only [List.length_cons] at hi
        exact Equiv.swap_apply_of_ne_of_ne (by omega) (by omega)
  | trans hxy _ ihxy ihyz =>
      obtain ⟨σ, hσ, hrest⟩ := ihxy
      obtain ⟨τ, hτ, hrest'⟩ := ihyz
      refine ⟨σ.trans τ, fun i => ?_, fun i hi => ?_⟩
      · rw [Equiv.trans_apply, hτ, hσ]
      · rw [Equiv.trans_apply, hrest i hi, hrest' i (hxy.length_eq ▸ hi)]

/-- What goes with the entries of a list is a function of them, if they are all different. -/
lemma exists_getElem?_eq_map {α β : Type} [DecidableEq α] [Inhabited β] {xs : List α}
    (hnodup : xs.Nodup) {ys : List β} (hlength : ys.length = xs.length) :
    ∃ f : α → β, ∀ i : Nat, ys[i]? = xs[i]?.map f := by
  refine ⟨fun x => ys[xs.idxOf x]?.getD default, fun i => ?_⟩
  by_cases hi : i < xs.length
  · rw [List.getElem?_eq_getElem hi, Option.map_some, hnodup.idxOf_getElem i hi,
      List.getElem?_eq_getElem (hlength ▸ hi), Option.getD_some]
  · rw [List.getElem?_eq_none (Nat.not_lt.mp hi),
      List.getElem?_eq_none (hlength ▸ Nat.not_lt.mp hi)]
    rfl

/-- The syntax tree of an input, which is empty if there is none. -/
def SourceFile.program (file : SourceFile) : Program :=
  (file.read.toOption).getD ⟨[]⟩

/-- Reading inputs gives the tree of each. -/
lemma mapM_read : ∀ {files : List SourceFile} {programs : List Program},
    files.mapM SourceFile.read = .ok programs →
      (∀ file ∈ files, file.read = .ok file.program) ∧ programs = files.map SourceFile.program
  | [], _, h => by
      rw [List.mapM_nil] at h
      obtain rfl := Except.ok.inj h
      exact ⟨by simp, rfl⟩
  | file :: rest, _, h => by
      rw [List.mapM_cons] at h
      cases hread : file.read with
      | error rejection =>
          rw [hread] at h
          cases h
      | ok program =>
          have hprogram : file.program = program := by
            rw [SourceFile.program, hread]
            rfl
          cases hrest : rest.mapM SourceFile.read with
          | error rejection =>
              rw [hread, hrest] at h
              cases h
          | ok programs =>
              rw [hread, hrest] at h
              obtain rfl := Except.ok.inj h
              obtain ⟨hall, rfl⟩ := mapM_read hrest
              refine ⟨List.forall_mem_cons.mpr ⟨hread.trans (by rw [hprogram]), hall⟩, ?_⟩
              rw [List.map_cons, hprogram]

lemma mapM_read_of : ∀ {files : List SourceFile}, (∀ file ∈ files, file.read = .ok file.program) →
    files.mapM SourceFile.read = .ok (files.map SourceFile.program)
  | [], _ => rfl
  | file :: rest, h => by
      rw [List.mapM_cons, h file List.mem_cons_self,
        mapM_read_of fun other hother => h other (List.mem_cons_of_mem _ hother)]
      rfl

/-- An input in its place. -/
def SourceFile.placed (file : SourceFile) (i : Nat) : ReadFile :=
  ⟨file.path, { file := i, module := moduleStem file.path, source := file.text }, file.program⟩

lemma placeFiles_eq {files : List SourceFile} (hstems : (files.map (moduleStem ·.path)).Nodup) :
    placeFiles files (files.map SourceFile.program) =
      files.zipIdx.map fun input => input.1.placed input.2 := by
  have hnames : moduleNames (files.map (·.path)) = files.map (moduleStem ·.path) := by
    rw [moduleNames_of_nodup, List.map_map]
    · rfl
    · rwa [List.map_map]
  rw [placeFiles, hnames]
  refine List.ext_getElem? fun i => ?_
  simp only [List.getElem?_map, List.getElem?_zipIdx, List.zip_eq_zipWith, List.getElem?_zipWith]
  cases files[i]? <;> rfl

lemma length_placeFiles (files : List SourceFile) :
    (placeFiles files (files.map SourceFile.program)).length = files.length := by
  simp [placeFiles, length_moduleNames]

lemma placeFiles_numbered (files : List SourceFile) (programs : List Program) :
    Numbered (placeFiles files programs) := by
  have hnumbers : (placeFiles files programs).map (·.place.file) =
      (((files.zip (moduleNames (files.map (·.path)))).zip programs).zipIdx).map (·.2) := by
    rw [placeFiles, List.map_map]
    rfl
  rw [Numbered, hnumbers, List.zipIdx_map_snd, List.range_eq_range', placeFiles]
  simp

lemma placeFiles_distinguished {files : List SourceFile} {programs : List Program}
    (hlength : files.length ≤ ambientFile) : Distinguished (placeFiles files programs) := by
  have hnumbered := placeFiles_numbered files programs
  refine ⟨placeFiles_isTop, placeFiles_modules_nodup, ?_, ?_⟩
  · rw [hnumbered]
    exact List.nodup_range
  · rw [hnumbered, List.mem_range, placeFiles]
    simp only [List.length_map, List.length_zipIdx, List.length_zip]
    omega

/-- **The same inputs in another order** are the files of two runs. -/
lemma placeFiles_reordered {files files' : List SourceFile} {σ : Equiv.Perm Nat}
    (hperm : files.Perm files') (hstems : (files.map (moduleStem ·.path)).Nodup)
    (hlength : files.length ≤ ambientFile) (hσ : ∀ i, files'[σ i]? = files[i]?)
    (hrest : ∀ i, files.length ≤ i → σ i = i)
    (happart : (placeFiles files (files.map SourceFile.program)).Pairwise
      fun f g => f.typeNames.Disjoint g.typeNames) :
    Reordered σ (placeFiles files (files.map SourceFile.program))
      (placeFiles files' (files'.map SourceFile.program)) := by
  refine ⟨placeFiles_distinguished hlength, hrest _ hlength, ?_, happart⟩
  have hstems' : (files'.map (moduleStem ·.path)).Nodup :=
    (hperm.map _).nodup_iff.mp hstems
  have hplaces : files'.zipIdx.Perm (files.zipIdx.map fun input => (input.1, σ input.2)) := by
    have hnodup : ∀ inputs : List SourceFile, (inputs.zipIdx.map (·.2)).Nodup := fun inputs => by
      rw [List.zipIdx_map_snd]
      exact List.nodup_range'
    have hnodup' : (files.zipIdx.map fun input => (input.1, σ input.2)).Nodup := by
      refine List.Nodup.of_map (·.2) ?_
      rw [List.map_map]
      have hmap := (hnodup files).map σ.injective
      rwa [List.map_map] at hmap
    rw [List.perm_ext_iff_of_nodup (.of_map _ (hnodup files')) hnodup']
    rintro ⟨file, j⟩
    rw [List.mem_zipIdx_iff_getElem?, List.mem_map]
    constructor
    · intro hj
      refine ⟨(file, σ.symm j), ?_, by simp⟩
      rw [List.mem_zipIdx_iff_getElem?, ← hσ, Equiv.apply_symm_apply]
      exact hj
    · rintro ⟨⟨other, i⟩, hi, he⟩
      obtain ⟨rfl, rfl⟩ := Prod.mk.inj he
      rw [List.mem_zipIdx_iff_getElem?] at hi
      exact (hσ i).trans hi
  rw [placeFiles_eq hstems, placeFiles_eq hstems', List.map_map]
  have hplaced := hplaces.map fun input => input.1.placed input.2
  rw [List.map_map] at hplaced
  exact hplaced

/-! ## Runs -/

/-- A run without merging writes the libraries of its files. -/
lemma generate_placed {files : List SourceFile} {options : GenerationOptions} {session : Session}
    (hmerge : options.merge = none) (hall : ∀ file ∈ files, file.read = .ok file.program)
    (hprepare : Session.prepare (collect (placeFiles files (files.map SourceFile.program))).1 options
      (libraryPlans (placeFiles files (files.map SourceFile.program))) = .ok session) :
    generate files options = .ok ((writeLibraries 0
      (libraryPlans (placeFiles files (files.map SourceFile.program)))).run session).1 := by
  have hplan : planRun options.merge files (files.map SourceFile.program) =
      ⟨(collect (placeFiles files (files.map SourceFile.program))).1,
        libraryPlans (placeFiles files (files.map SourceFile.program))⟩ := by
    rw [hmerge]
    rfl
  rw [generate_eq (mapM_read_of hall) (by rw [hplan]; exact hprepare), hplan]

/-- A run writes as many libraries as there are files. -/
lemma length_units {files : List ReadFile} (hmodules : (files.map (·.place.module)).Nodup)
    {session : Session} (hready : session.Ready (collect files).1 (libraryPlans files)) :
    ((writeLibraries 0 (libraryPlans files)).run session).1.length = files.length := by
  rw [hready.writeLibraries_eq, List.length_map, List.length_zipIdx, length_libraryPlans hmodules]

/-- **The order of the inputs does not matter.**  Take inputs that are well formed, without merging,
whose paths suggest different names and of which no two declare types of one name.  Then each of them
becomes the same library, with the same text, diagnostics and failure, in whatever order they come.
There are no more inputs than file numbers, which have 32 bits, the last being the platform's. -/
theorem generate_perm {files : List SourceFile} {programs : List Program}
    {options : GenerationOptions} (hmerge : options.merge = none)
    (hread : files.mapM SourceFile.read = .ok programs)
    (hstems : (files.map (moduleStem ·.path)).Nodup) (hlength : files.length ≤ ambientFile)
    (happart : (placeFiles files programs).Pairwise fun f g => f.typeNames.Disjoint g.typeNames) :
    ∃ library : SourceFile → OutputLibrary, ∀ files', files.Perm files' →
      generate files' options = .ok (files'.map library) := by
  obtain ⟨hall, rfl⟩ := mapM_read hread
  obtain ⟨session, hprepare, hready⟩ := prepare_session
    (collect (placeFiles files (files.map SourceFile.program))).1 options
    (libraryPlans (placeFiles files (files.map SourceFile.program)))
  have hlength' := length_units placeFiles_modules_nodup hready
  have hunits : ∀ files', files.Perm files' → ∃ units', generate files' options = .ok units' ∧
      ∃ σ : Equiv.Perm Nat, ∀ i, files'[σ i]? = files[i]? ∧ units'[σ i]? =
        ((writeLibraries 0 (libraryPlans (placeFiles files (files.map SourceFile.program)))).run
          session).1[i]? := by
    intro files' hperm
    obtain ⟨σ, hσ, hrest⟩ := exists_places hperm
    have h := placeFiles_reordered hperm hstems hlength hσ hrest happart
    obtain ⟨session', hprepare', -⟩ := prepare_session
      (collect (placeFiles files' (files'.map SourceFile.program))).1 options
      (libraryPlans (placeFiles files' (files'.map SourceFile.program)))
    have hall' : ∀ file ∈ files', file.read = .ok file.program := fun file hfile =>
      hall file (hperm.mem_iff.mpr hfile)
    exact ⟨_, generate_placed hmerge hall' hprepare', σ, fun i => ⟨hσ i, h.units
      (placeFiles_numbered _ _) (placeFiles_numbered _ _) hprepare hprepare' i⟩⟩
  have hinhabited : Inhabited OutputLibrary := ⟨⟨"", "", [], none⟩⟩
  obtain ⟨library, hlibrary⟩ := exists_getElem?_eq_map (List.Nodup.of_map _ hstems)
    (hlength'.trans (length_placeFiles files))
  refine ⟨library, fun files' hperm => ?_⟩
  obtain ⟨units', hgenerate, σ, hσ⟩ := hunits files' hperm
  rw [hgenerate]
  refine congrArg Except.ok (List.ext_getElem? fun j => ?_)
  obtain ⟨hfile, hunit⟩ := hσ (σ.symm j)
  rw [Equiv.apply_symm_apply] at hfile hunit
  rw [List.getElem?_map, hunit, hfile, hlibrary]

set_option maxRecDepth 2000 in
/-- A class and a variable of its type, in either order. -/
theorem generate_perm_class_and_variable :
    let first : SourceFile := ⟨"a", "class A {}"⟩
    let second : SourceFile := ⟨"b", "var x: A;"⟩
    ∃ ofClass ofVariable, generate [first, second] {} = .ok [ofClass, ofVariable] ∧
      generate [second, first] {} = .ok [ofVariable, ofClass] := by
  intro first second
  let classTree : Program :=
    ⟨[.declaration false (.klass ⟨⟨0, 10⟩, some "A", [], none, [], [], []⟩)]⟩
  let variableTree : Program := ⟨[.declaration false (.variables .var
    [⟨⟨4, 8⟩, .name "x", some ⟨⟨7, 8⟩, .reference ["A"] []⟩, none⟩])]⟩
  have hread : [first, second].mapM SourceFile.read = .ok [classTree, variableTree] := by
    have hlanguage : Language.ofPath "a" = .declarations := by cbv
    have hlanguage' : Language.ofPath "b" = .declarations := by cbv
    have hclass : parse .declarations "class A {}" = some classTree := by cbv
    have hvariable : parse .declarations "var x: A;" = some variableTree := by cbv
    have hfirst : first.read = .ok classTree := by
      simp only [SourceFile.read, first, hlanguage, hclass]
      rw [if_pos (by decide +kernel)]
    have hsecond : second.read = .ok variableTree := by
      simp only [SourceFile.read, second, hlanguage', hvariable]
      rw [if_pos (by decide +kernel)]
    rw [List.mapM_cons, List.mapM_cons, hfirst, hsecond]
    rfl
  have hstems : [first, second].map (moduleStem ·.path) = ["a", "b"] := by
    have hfirst : fileName "a" = "a" := by cbv
    have hsecond : fileName "b" = "b" := by cbv
    simp only [List.map_cons, List.map_nil, first, second, moduleStem, hfirst, hsecond]
    decide
  have hnodup : ([first, second].map (moduleStem ·.path)).Nodup := by
    rw [hstems]
    decide
  have hnames : moduleNames ([first, second].map (·.path)) = ["a", "b"] := by
    rw [moduleNames_of_nodup, List.map_map]
    · exact hstems
    · rw [List.map_map]
      exact hnodup
  have happart : (placeFiles [first, second] [classTree, variableTree]).Pairwise
      fun f g => f.typeNames.Disjoint g.typeNames := by
    rw [placeFiles, hnames]
    refine List.pairwise_pair.mpr fun name _ h => ?_
    cases h
  have hmerge : ({} : GenerationOptions).merge = none := rfl
  obtain ⟨library, h⟩ := generate_perm hmerge hread hnodup (by decide) happart
  exact ⟨library first, library second, h [first, second] (.refl _),
    h [second, first] (.swap second first [])⟩

end Interop
