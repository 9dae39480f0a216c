import Interop.Proofs.Attribution
import Interop.Proofs.Collection.Places
import Interop.Proofs.Isolation
import Interop.Proofs.Libraries

/-!
# The order of diagnostics

The log is empty when the work on a file begins, and what is in it when the file is done is handed
over, by place.  So the diagnostics of a library fall into blocks, one for each file.

* `ByPlace`, `Log.sorted_byPlace` — diagnostics by place, those of one place in report order.
* `CollectedFile.Block` — what is said of the diagnostics of one file.
* `FileBlocks`, `filesItems_blocks` — the files of a library, up to the one that is given up.
* **`generate_diagnostics`** — the diagnostics of a run.
-/

namespace Interop

open Source

/-! ## By place -/

/-- **Diagnostics by place**: the same ones as were reported, sorted by where they start and stop,
and those of one place in the order of the reports. -/
structure ByPlace (reported listed : List Diagnostic) : Prop where
  perm : listed.Perm reported
  sorted : listed.Pairwise fun d e => d.span.le e.span = true
  stable : ∀ span, listed.filter (·.span == span) = reported.filter (·.span == span)

lemma Span.le_trans {a b c : Span} (hab : a.le b = true) (hbc : b.le c = true) : a.le c = true := by
  simp only [Span.le, Bool.or_eq_true, Bool.and_eq_true, decide_eq_true_eq, beq_iff_eq] at *
  omega

lemma Span.le_total (a b : Span) : (a.le b || b.le a) = true := by
  simp only [Span.le, Bool.or_eq_true, Bool.and_eq_true, decide_eq_true_eq, beq_iff_eq]
  omega

lemma Span.le_refl (a : Span) : a.le a = true := by
  simpa using a.le_total a

lemma Span.eq_of_le {a b : Span} (hab : a.le b = true) (hba : b.le a = true) : a = b := by
  obtain ⟨start, stop⟩ := a
  obtain ⟨start', stop'⟩ := b
  simp only [Span.le, Bool.or_eq_true, Bool.and_eq_true, decide_eq_true_eq, beq_iff_eq] at hab hba
  rw [Span.mk.injEq]
  omega

/-- Sorted diagnostics are known by what is said of each place. -/
lemma eq_of_filter_span : ∀ {ds es : List Diagnostic},
    ds.Pairwise (fun d e => d.span.le e.span = true) →
      es.Pairwise (fun d e => d.span.le e.span = true) →
        (∀ span, ds.filter (·.span == span) = es.filter (·.span == span)) → ds = es
  | [], [], _, _, _ => rfl
  | [], e :: es, _, _, h => by simpa using h e.span
  | d :: ds, [], _, _, h => by simpa using h d.span
  | d :: ds, e :: es, hds, hes, h => by
      have hmem : ∀ g, g ∈ d :: ds ↔ g ∈ e :: es := fun g => by
        have hg := congrArg (g ∈ ·) (h g.span)
        simpa only [List.mem_filter, beq_self_eq_true, and_true] using hg.to_iff
      have hfirst : ∀ {g : Diagnostic} {gs : List Diagnostic},
          (g :: gs).Pairwise (fun d e => d.span.le e.span = true) → ∀ d ∈ g :: gs,
            g.span.le d.span = true := fun hgs d hd =>
        (List.mem_cons.mp hd).elim (fun he => he ▸ Span.le_refl _) ((List.pairwise_cons.mp hgs).1 d)
      -- the first ones stand at the same place, where they are the first in both
      have hspan : d.span = e.span := Span.eq_of_le
        (hfirst hds e ((hmem e).mpr List.mem_cons_self))
        (hfirst hes d ((hmem d).mp List.mem_cons_self))
      have hsame := h d.span
      rw [List.filter_cons_of_pos (by simp), List.filter_cons_of_pos (by simp [hspan])] at hsame
      obtain ⟨rfl, hrest⟩ := List.cons.inj hsame
      refine congrArg _ (eq_of_filter_span hds.of_cons hes.of_cons fun span => ?_)
      by_cases hd : d.span = span
      · rw [← hd, hrest]
      · have hother := h span
        rwa [List.filter_cons_of_neg (by simpa using hd),
          List.filter_cons_of_neg (by simpa using hd)] at hother

/-- There is one way to list diagnostics by place. -/
lemma ByPlace.unique {reported ds es : List Diagnostic} (hds : ByPlace reported ds)
    (hes : ByPlace reported es) : ds = es :=
  eq_of_filter_span hds.sorted hes.sorted fun span => (hds.stable span).trans (hes.stable span).symm

/-- The log hands its diagnostics over by place. -/
lemma Log.sorted_byPlace (log : Log) : ByPlace log.entries log.sorted := by
  have hperm : log.sorted.Perm log.entries := List.mergeSort_perm _ _
  have htrans : ∀ d e g : Diagnostic, d.span.le e.span = true → e.span.le g.span = true →
      d.span.le g.span = true := fun _ _ _ => Span.le_trans
  have htotal : ∀ d e : Diagnostic, (d.span.le e.span || e.span.le d.span) = true :=
    fun _ _ => Span.le_total _ _
  refine ⟨hperm, List.pairwise_mergeSort htrans htotal _, fun span => ?_⟩
  -- what was reported of one place is sorted already, and sorting keeps what is sorted in order
  have hplace : (log.entries.filter (·.span == span)).Pairwise
      fun d e => d.span.le e.span = true := by
    refine List.pairwise_of_forall_mem_list fun d hd e he => ?_
    obtain rfl := beq_iff_eq.mp (List.mem_filter.mp hd).2
    rw [beq_iff_eq.mp (List.mem_filter.mp he).2]
    exact Span.le_refl _
  have hsub : (log.entries.filter (·.span == span)).Sublist log.sorted :=
    List.sublist_mergeSort htrans htotal hplace List.filter_sublist
  have hfiltered := hsub.filter (·.span == span)
  rw [List.filter_filter] at hfiltered
  simp only [Bool.and_self] at hfiltered
  exact (hfiltered.eq_of_length (hperm.filter _).length_eq.symm).symm

/-! ## Files -/

/-- What is collected from a file points into a text. -/
structure CollectedFile.PointsInto (table : SymbolTable) (text : String) (f : CollectedFile) :
    Prop where
  notes : ∀ note ∈ f.notes, note.span.Inside text
  symbols : ∀ id s, table.get? id = some s → s.file = f.file →
    s.span.Inside text ∧ ∀ m ∈ s.members, m.span.Inside text

/-- What is in the log when a file is done points into its text, and is there once. -/
lemma CollectedFile.PointsInto.entries {table : SymbolTable} {text : String} {f : CollectedFile}
    (h : f.PointsInto table text) {s : Session} (htable : s.table = table)
    (hentries : s.log.entries = []) :
    (∀ d ∈ (f.items.exec s).2.log.entries, d.span.Inside text) ∧
      (f.items.exec s).2.log.entries.Nodup := by
  have hitems : f.items.Attributed table (Span.Inside text) fun _ => True :=
    .andThen (.forM fun d hd => .report (h.notes d hd)) fun _ =>
      .table_bind (scopeItems_attributed h.symbols _ none)
  -- the place that the session is at has no effect, so it may be the start of the text
  have hstart : (s.pointAt Span.none).Attributed table (Span.Inside text) :=
    ⟨htable, Span.inside_none text, by simp [Session.pointAt, hentries],
      by simp [Session.pointAt, hentries]⟩
  obtain ⟨place, hplace⟩ := f.items_anchored s Span.none
  have hend := (hitems _ hstart).1
  rw [hplace] at hend
  exact ⟨hend.entries, hend.nodup⟩

/-- **The diagnostics of one file**, when the work on it begins in a session: they are of its path,
point into its text, and are all different, and they are listed by place. -/
structure CollectedFile.Block (files : List SourceFile) (f : CollectedFile) (begun : Session)
    (block : List FileDiagnostic) : Prop where
  empty : begun.log.entries = []
  file : ∃ file, files[f.file]? = some file ∧ file.path = f.path ∧
    ∀ d ∈ block, d.path = file.path ∧ d.diagnostic.span.Inside file.text
  order : ByPlace (f.items.exec begun).2.log.entries (block.map (·.diagnostic))
  nodup : block.Nodup

/-- A block is known by what was reported. -/
lemma CollectedFile.Block.eq_of {files : List SourceFile} {f : CollectedFile} {begun : Session}
    {block : List FileDiagnostic} (h : f.Block files begun block) {reported ds : List Diagnostic}
    (hreported : (f.items.exec begun).2.log.entries = reported) (hds : ByPlace reported ds) :
    block = ds.map fun d => ⟨f.path, d⟩ := by
  have horder : ByPlace reported (block.map (·.diagnostic)) := hreported ▸ h.order
  obtain ⟨file, -, hpath, hblock⟩ := h.file
  rw [← horder.unique hds, List.map_map]
  refine ((List.map_congr_left fun d hd => ?_).trans (List.map_id block)).symm
  obtain ⟨path, diagnostic⟩ := d
  obtain rfl : path = file.path := (hblock _ hd).1
  rw [← hpath]
  rfl

/-- **The diagnostics of some files**, when the work on them begins in a session: a block for each
file, up to the first that is given up. -/
inductive FileBlocks (files : List SourceFile) :
    List CollectedFile → Session → List (List FileDiagnostic) → Prop
  | done (begun : Session) : FileBlocks files [] begun []
  | givenUp {f : CollectedFile} {begun : Session} {block : List FileDiagnostic} {failure : Failure}
      (rest : List CollectedFile) (hfailure : (f.items.exec begun).1 = .error failure)
      (hblock : f.Block files begun block) : FileBlocks files (f :: rest) begun [block]
  | next {f : CollectedFile} {rest : List CollectedFile} {begun : Session}
      {block : List FileDiagnostic} {blocks : List (List FileDiagnostic)} {items : List Item}
      (hitems : (f.items.exec begun).1 = .ok items) (hblock : f.Block files begun block)
      (hrest : FileBlocks files rest (f.after begun) blocks) :
      FileBlocks files (f :: rest) begun (block :: blocks)

section

variable {files : List SourceFile} {table : SymbolTable}

/-- The diagnostics of a file whose symbols and notes point into its text. -/
lemma CollectedFile.PointsInto.block {file : SourceFile} {f : CollectedFile}
    (h : f.PointsInto table file.text) (hfile : files[f.file]? = some file)
    (hpath : file.path = f.path) {s : Session} (htable : s.table = table)
    (hentries : s.log.entries = []) : f.Block files s (f.reports s) := by
  obtain ⟨hinside, hnodup⟩ := h.entries htable hentries
  have hsorted := (f.items.exec s).2.log.sorted_byPlace
  refine ⟨hentries, ⟨file, hfile, hpath, fun d hd => ?_⟩, ?_, ?_⟩
  · obtain ⟨e, he, rfl⟩ := List.mem_map.mp hd
    exact ⟨hpath.symm, hinside e (hsorted.perm.mem_iff.mp he)⟩
  · rw [CollectedFile.reports, List.map_map]
    exact (List.map_id _).symm ▸ hsorted
  · refine (hsorted.perm.nodup_iff.mpr hnodup).map fun d e he => ?_
    exact (FileDiagnostic.mk.inj he).2

/-- **The diagnostics of files are those of one after another**, up to the first that is given
up. -/
lemma filesItems_blocks {may : Failure → Prop} : ∀ {collected : List CollectedFile} {s : Session},
    (∀ f ∈ collected, ∃ file, files[f.file]? = some file ∧ file.path = f.path ∧
      f.PointsInto table file.text) → s.table = table → s.Settled may → s.log.entries = [] →
      ∃ blocks, FileBlocks files collected s blocks ∧
        ((filesItems collected).run s).1.2 = blocks.flatten
  | [], s, _, _, _, _ => ⟨[], .done s, rfl⟩
  | f :: rest, s, hfiles, htable, hs, hentries => by
      obtain ⟨file, hfile, hpath, hpoints⟩ := hfiles f List.mem_cons_self
      have hblock := hpoints.block hfile hpath htable hentries
      cases hrun : (f.items.exec s).1 with
      | error failure =>
          refine ⟨_, .givenUp rest hrun hblock, ?_⟩
          rw [filesItems_cons_error hrun, List.flatten_singleton]
      | ok items =>
          have hleaves := f.leaves_after hs
          have htable' : (f.after s).table = table := by
            rw [hleaves.kept]
            exact htable
          obtain ⟨blocks, hblocks, hreports⟩ := filesItems_blocks
            (fun g hg => hfiles g (List.mem_cons_of_mem _ hg)) htable' (hleaves.settled hs) rfl
          refine ⟨_, .next hrun hblock hblocks, ?_⟩
          rw [filesItems_cons_ok hrun, List.flatten_cons, hreports]

end

/-! ## Runs -/

/-- The files of a library of a run are files of the run, and point into their texts if their
declarations do. -/
lemma planRun_pointsInto {files : List SourceFile} {programs : List Program}
    (merge : Option String) (hspans : ∀ f ∈ placeFiles files programs, ∀ span ∈ f.spans,
      span.Inside f.place.source) {library : LibraryPlan}
    (hlibrary : library ∈ (planRun merge files programs).libraries) :
    ∀ g ∈ library.files, ∃ file, files[g.file]? = some file ∧ file.path = g.path ∧
      g.PointsInto (planRun merge files programs).table file.text := by
  intro g hg
  have hcollected : g ∈ (collect (placeFiles files programs)).2 :=
    (planRun_files merge files programs).mem_iff.mp (List.mem_flatMap.mpr ⟨library, hlibrary, hg⟩)
  have hall := collect_spans files programs
  obtain ⟨i, hi, rfl⟩ := List.mem_iff_getElem.mp hcollected
  have hi' : i < (placeFiles files programs).length := hall.length_eq ▸ hi
  obtain ⟨hpath, hfile, hnotes, hsymbols⟩ := hall.get hi' hi
  have hplaced := List.getElem?_eq_getElem hi'
  have hinside := hspans _ (List.getElem_mem hi')
  simp only [List.get_eq_getElem] at hpath hfile hnotes hsymbols
  obtain ⟨file, name, program, hgiven, -, -, hf⟩ := placeFiles_getElem? hplaced
  rw [hf] at hpath hfile hnotes hsymbols hinside
  refine ⟨file, by rw [hfile]; exact hgiven, hpath.symm, ⟨fun note hnote => ?_, ?_⟩⟩
  · exact hinside _ (hnotes note hnote)
  · intro id s hs hsfile
    obtain ⟨hspan, hmembers⟩ := hsymbols id s hs hsfile
    refine ⟨hspan.elim (fun hnone => ?_) (hinside _), fun m hm => hinside _ (hmembers m hm)⟩
    rw [hnone]
    exact Span.inside_none file.text

/-- **Diagnostics are attributed and ordered.**  If the declarations of every file and their parts
stand in the text of the file, then the diagnostics of every library of a run are those of its files
one after another: a block for each file, in the order of the library, up to the first file that is
given up.  What is in a block was reported while the file was written, on a log that was empty before.
It is of the path of the file, points into its text, is listed by place with ties in report order,
and is all different. -/
theorem generate_diagnostics {files : List SourceFile} {programs : List Program}
    (options : GenerationOptions) (hread : files.mapM SourceFile.read = .ok programs)
    (hspans : ∀ f ∈ placeFiles files programs, ∀ span ∈ f.spans, span.Inside f.place.source) :
    let plan := planRun options.merge files programs
    ∃ session units, Session.prepare plan.table options plan.libraries = .ok session ∧
      generate files options = .ok units ∧ units.length = plan.libraries.length ∧
      ∀ i library, plan.libraries[i]? = some library → ∃ unit blocks, units[i]? = some unit ∧
        FileBlocks files library.files (session.enter i) blocks ∧
          unit.diagnostics = blocks.flatten := by
  intro plan
  obtain ⟨session, hprepare, hready⟩ := prepare_session plan.table options plan.libraries
  have hs := hready.settled_any
  have hunits := writeLibraries_run hs hready.entries plan.libraries
  refine ⟨session, _, hprepare, generate_eq hread hprepare, ?_, fun i library hlibrary => ?_⟩
  · rw [hunits, List.length_map, List.length_zipIdx]
  · have hfiles := planRun_pointsInto options.merge hspans
      (List.mem_of_getElem? hlibrary)
    obtain ⟨blocks, hblocks, hreports⟩ := filesItems_blocks hfiles
      (s := session.enter i) hready.table_eq (hs.enter i) hready.entries
    refine ⟨((writeLibrary i library.name library.files).run session).1, blocks, ?_, hblocks, ?_⟩
    · rw [hunits, List.getElem?_map, List.getElem?_zipIdx, hlibrary, Nat.zero_add]
      rfl
    · rw [writeLibrary_run, ← hreports]
      unfold finishLibrary
      dsimp only
      split <;> rfl

set_option maxRecDepth 2000 in
/-- An alias that refers to itself is reported where it is used, at the place of the member that uses
it.  The next member was noted before that; it is listed after it. -/
theorem generate_diagnostics_recursive_alias :
    let file : SourceFile := ⟨"a", "type R = R[]; interface A \x7b r: R; [y]: string; \x7d"⟩
    let recursive : Diagnostic := .unsupported ⟨28, 33⟩ "recursive type alias `R`"
    let computed : Diagnostic := .unsupported ⟨34, 46⟩ "computed property name"
    ∃ program, [file].mapM SourceFile.read = .ok [program] ∧
      (∀ f ∈ placeFiles [file] [program], ∀ span ∈ f.spans, span.Inside f.place.source) ∧
      let plan := planRun none [file] [program]
      let collected : CollectedFile := ⟨"a", 0, [computed]⟩
      ∃ session unit blocks, plan.libraries = [⟨"a", [collected]⟩] ∧
        Session.prepare plan.table {} plan.libraries = .ok session ∧
        generate [file] {} = .ok [unit] ∧
        (collected.items.exec (session.enter 0)).2.log.entries = [computed, recursive] ∧
        FileBlocks [file] [collected] (session.enter 0) blocks ∧ unit.diagnostics = blocks.flatten ∧
        blocks = [[⟨"a", recursive⟩, ⟨"a", computed⟩]] := by
  intro file recursive computed
  let aliasNode : AliasNode :=
    ⟨⟨0, 13⟩, "R", [], ⟨⟨9, 12⟩, .array ⟨⟨9, 10⟩, .reference ["R"] []⟩⟩⟩
  let node : InterfaceNode := ⟨⟨14, 48⟩, "A", [], [],
    [.property ⟨28, 33⟩ (.identifier "r") false false (some ⟨⟨31, 32⟩, .reference ["R"] []⟩),
      .property ⟨34, 46⟩ .computed false false (some ⟨⟨39, 45⟩, .keyword .string⟩)]⟩
  let program : Program :=
    ⟨[.declaration false (.alias aliasNode), .declaration false (.interface node)]⟩
  have hread : file.read = .ok program :=
    SourceFile.read_of_parse (by cbv) (by cbv) (by decide +kernel)
  have hstem : moduleStem file.path = "a" := (moduleStem_of_fileName (by cbv)).trans (by decide)
  have hplaced := placeFiles_singleton file program hstem
  have hreads := SourceFile.mapM_read_singleton hread
  have hspans : ∀ f ∈ placeFiles [file] [program], ∀ span ∈ f.spans,
      span.Inside f.place.source := by
    rw [hplaced]
    decide +kernel
  refine ⟨program, hreads, hspans, ?_⟩
  intro plan collected
  have hplan : plan = planPlaced none _ := (planRun_eq none _ _).trans (congrArg _ hplaced)
  have hlibraries : plan.libraries = [⟨"a", [collected]⟩] := by
    rw [hplan]
    decide +kernel
  obtain ⟨session, units, hprepare, hgenerate, hlength, hunits⟩ :=
    generate_diagnostics {} hreads hspans
  obtain ⟨unit, blocks, hunit, hblocks, hflatten⟩ := hunits 0 ⟨"a", [collected]⟩
    (congrArg (·[0]?) hlibraries)
  obtain ⟨other, rfl⟩ := List.length_eq_one_iff.mp (hlength.trans (congrArg List.length hlibraries))
  obtain rfl := Option.some.inj hunit
  have hreported : (Session.prepare plan.table {} plan.libraries).toOption.map (fun session =>
      (collected.items.exec (session.enter 0)).2.log.entries) = some [computed, recursive] := by
    rw [hplan]
    decide +kernel
  rw [show Session.prepare plan.table {} plan.libraries = .ok session from hprepare] at hreported
  have hentries := Option.some.inj hreported
  refine ⟨session, other, blocks, hlibraries, hprepare, hgenerate, hentries, hblocks, hflatten, ?_⟩
  have hlisted : ByPlace [computed, recursive] [recursive, computed] := by
    refine ⟨.swap .., by decide, fun span => ?_⟩
    by_cases hspan : (⟨28, 33⟩ : Span) = span
    · rw [← hspan]
      decide
    · have hother : ((⟨28, 33⟩ : Span) == span) = false := beq_eq_false_iff_ne.mpr hspan
      simp [recursive, computed, Diagnostic.span, hother, List.filter_cons]
  cases hblocks with
  | givenUp _ _ hblock => exact congrArg (fun block => [block]) (hblock.eq_of hentries hlisted)
  | next _ hblock hrest =>
      cases hrest
      exact congrArg (fun block => [block]) (hblock.eq_of hentries hlisted)

end Interop
