import Interop.Proofs.Collection.FileAccounts

/-!
# Where the symbols and notes of a file stand

Everything that is collected from a file keeps the place that it was read at: a symbol that of its
first declaration, a member that of its element, and a note that of the part it is about.  So if
the syntax tree of a file points into the text of the file, then its symbols and notes do too.

* `Span.Inside`, `ReadFile.spans` — places in a text, and the places of a file's declarations.
* `declareFiles_span` — a symbol stands where one of the declarations of its file does.
* **`collect_spans`** — so do its members, and the notes of the file.
-/

namespace Interop

open Source

/-- A span is a place in a text. -/
def Span.Inside (text : String) (span : Span) : Prop :=
  span.start ≤ span.stop ∧ span.stop ≤ text.utf8ByteSize

instance (text : String) (span : Span) : Decidable (span.Inside text) :=
  inferInstanceAs (Decidable (_ ∧ _))

/-- What comes from no text stands at the start of any. -/
lemma Span.inside_none (text : String) : Span.none.Inside text :=
  ⟨Nat.le_refl _, Nat.zero_le _⟩

/-- The places of the declarations of a file, of the namespaces around them and of their parts. -/
def ReadFile.spans (f : ReadFile) : List Span :=
  spansOf f.program.body ++ f.sites.flatMap fun site => site.declaration.parts.filterMap (·.span?)

lemma ReadFile.mem_spans_of_part {f : ReadFile} {site : Site} (hsite : site ∈ f.sites) {part : Part}
    (hpart : part ∈ site.declaration.parts) {span : Span} (hspan : part.span? = some span) :
    span ∈ f.spans :=
  List.mem_append_right _ <|
    List.mem_flatMap.mpr ⟨site, hsite, List.mem_filterMap.mpr ⟨part, hpart, hspan⟩⟩

/-- **A symbol stands where one of the declarations of its file does**, unless it comes from no
file. -/
lemma declareFiles_span (files : List ReadFile) {id : Nat} {s : Symbol}
    (hs : (declareFiles files).table.get? id = some s) :
    s.span = Span.none ∨ ∃ f ∈ files, s.file = f.place.file ∧ s.span ∈ spansOf f.program.body := by
  let P : Symbol → Prop := fun s =>
    s.span = Span.none ∨ ∃ f ∈ files, s.file = f.place.file ∧ s.span ∈ spansOf f.program.body
  refine declareFiles_keeps (P := fun _ c => ∀ id s, c.table.get? id = some s → P s)
    (fun f hf keys c place name kind span hfile hspan hc => ?_) (fun id s hs => ?_) id s hs
  · exact Catalogue.declare_symbols (fun _ h => h) hc (.inr ⟨f, hf, hfile, hspan⟩)
  · obtain ⟨name, target, rfl⟩ := SymbolTable.platform_external hs
    exact .inl rfl

/-! ## Runs -/

/-- Files of a run are told apart by their numbers. -/
lemma placeFiles_eq_of_file {files : List SourceFile} {programs : List Program} {f g : ReadFile}
    (hf : f ∈ placeFiles files programs) (hg : g ∈ placeFiles files programs)
    (h : f.place.file = g.place.file) : f = g := by
  obtain ⟨i, hi⟩ := List.mem_iff_getElem?.mp hf
  obtain ⟨j, hj⟩ := List.mem_iff_getElem?.mp hg
  have hfile : f.place.file = i := by
    obtain ⟨_, _, _, -, -, -, rfl⟩ := placeFiles_getElem? hi
    rfl
  have hfile' : g.place.file = j := by
    obtain ⟨_, _, _, -, -, -, rfl⟩ := placeFiles_getElem? hj
    rfl
  obtain rfl : i = j := by rw [← hfile, h, hfile']
  exact Option.some.inj (hi.symm.trans hj)

/-- **Symbols, members and notes stand where the declarations of their file and the parts of them
do.** -/
theorem collect_spans (files : List SourceFile) (programs : List Program) :
    List.Forall₂ (fun f g => g.path = f.path ∧ g.file = f.place.file ∧
        (∀ note ∈ g.notes, note.span ∈ f.spans) ∧
        ∀ id s, (collect (placeFiles files programs)).1.get? id = some s → s.file = g.file →
          (s.span = Span.none ∨ s.span ∈ f.spans) ∧ ∀ m ∈ s.members, m.span ∈ f.spans)
      (placeFiles files programs) (collect (placeFiles files programs)).2 := by
  have haccounts := collect_accounts (placeFiles files programs) placeFiles_modules_nodup
  refine List.forall₂_iff_zip.mpr ⟨haccounts.length_eq, fun {f g} hpair => ?_⟩
  obtain ⟨hpath, hfile, haccount⟩ := (List.forall₂_iff_zip.mp haccounts).2 hpair
  have hf := (List.of_mem_zip hpair).1
  refine ⟨hpath, hfile, fun note hnote => ?_, fun id s hs hsfile => ⟨?_, fun m hm => ?_⟩⟩
  · obtain ⟨site, hsite, part, hpart, hspan⟩ := haccount.noted note hnote
    exact ReadFile.mem_spans_of_part hsite hpart hspan
  · obtain ⟨t, ht, hbare⟩ := SymbolTable.get?_congr (collect_bare _) hs
    have hsame : t.file = s.file ∧ t.span = s.span := by
      obtain ⟨-, -, hfile, -⟩ := Symbol.of_bare hbare
      exact ⟨hfile.symm, (congrArg Symbol.span hbare).symm⟩
    rw [← hsame.2]
    refine (declareFiles_span _ ht).imp_right fun ⟨other, hother, hotherfile, hspan⟩ => ?_
    obtain rfl := placeFiles_eq_of_file hother hf
      (by rw [← hotherfile, hsame.1, hsfile, hfile])
    exact List.mem_append_left _ hspan
  · have hbare : s.bare ≠ s := by
      intro hbare
      rw [← hbare] at hm
      cases hm
    obtain ⟨other, hother, howns⟩ := exists_owner_of_bare hs hbare
    have hotherfile := howns.file placeFiles_isTop placeFiles_modules_nodup hother hs
    obtain rfl := placeFiles_eq_of_file hother hf (by rw [← hotherfile, hsfile, hfile])
    obtain ⟨site, hsite, -, hpart⟩ := haccount.members id s howns hs m hm
    exact ReadFile.mem_spans_of_part hsite hpart rfl

end Interop
