import Interop.Proofs.Allocation
import Interop.Proofs.Phrases.Spelling

/-!
# Notes in comments

A rendered type carries what it does not say as notes, each written as a block comment.  Block
comments of the target nest, and a note is put into its comment as it is.  So the comment ends where
it is meant to end if the note opens as many comments as it closes, and never closes more.  A note
that is kept from the source may do otherwise, as the literal `'*/'` does.

* `afterComment` — what follows a comment; `uncommented` — a text without its comments.
* `Contained` — a note that stays in its comment.
* `afterComment_note` — the comment of a note ends with the end that is written for it exactly if the
  note is contained.
* `Phrase.uncommented_text` — a phrase without its comments is what it says besides its notes.
* **`planRun_comments`** — the comments of all types that are rendered in a run.
-/

namespace Interop

/-! ## Block comments -/

/-- What follows a comment whose opening has been read.  Comments nest; the depth counts the comments
inside that are still open. -/
def afterComment : (depth : Nat) → List Char → Option (List Char)
  | depth, c :: next :: rest =>
    if c = '/' ∧ next = '*' then afterComment (depth + 1) rest
    else if c = '*' ∧ next = '/' then
      match depth with
      | 0 => some rest
      | outer + 1 => afterComment outer rest
    else afterComment depth (next :: rest)
  | _, _ => none

/-- A text without its comments, if all of them end.  The depth counts the comments that are open. -/
def uncommented : (depth : Nat) → List Char → Option (List Char)
  | depth, c :: next :: rest =>
    if c = '/' ∧ next = '*' then uncommented (depth + 1) rest
    else
      match depth with
      | 0 => (uncommented 0 (next :: rest)).map (c :: ·)
      | outer + 1 =>
        if c = '*' ∧ next = '/' then uncommented outer rest else uncommented (outer + 1) (next :: rest)
  | 0, text => some text
  | _ + 1, _ => none

section

variable {depth : Nat} {cs left : List Char}

lemma length_afterComment (h : afterComment depth cs = some left) : left.length + 2 ≤ cs.length := by
  fun_induction afterComment depth cs with
  | case1 depth c next cs _ ih =>
    have := ih h
    simp only [List.length_cons]
    omega
  | case2 c next cs =>
    obtain rfl := Option.some.inj h
    simp only [List.length_cons]
    omega
  | case3 c next cs _ _ outer ih =>
    have := ih h
    simp only [List.length_cons]
    omega
  | case4 depth c next cs _ _ ih =>
    have := ih h
    simp only [List.length_cons] at this ⊢
    omega
  | case5 => cases h

/-- Where a comment ends does not depend on what follows. -/
lemma afterComment_append (h : afterComment depth cs = some left) (rest : List Char) :
    afterComment depth (cs ++ rest) = some (left ++ rest) := by
  fun_induction afterComment depth cs with
  | case1 depth c next cs hopen ih =>
    simpa only [List.cons_append, afterComment, if_pos hopen] using ih h
  | case2 c next cs hopen hclose =>
    obtain rfl := Option.some.inj h
    simp only [List.cons_append, afterComment, if_neg hopen, if_pos hclose]
  | case3 c next cs hopen hclose outer ih =>
    simpa only [List.cons_append, afterComment, if_neg hopen, if_pos hclose] using ih h
  | case4 depth c next cs hopen hclose ih =>
    simpa only [List.cons_append, afterComment, if_neg hopen, if_neg hclose] using ih h
  | case5 => cases h

/-- A comment that leaves all that follows a text ends in the text. -/
lemma afterComment_of_append {rest : List Char}
    (h : afterComment depth (cs ++ rest) = some (left ++ rest)) :
    afterComment depth cs = some left := by
  fun_induction afterComment depth cs with
  | case1 depth c next cs hopen ih =>
    exact ih (by simpa only [List.cons_append, afterComment, if_pos hopen] using h)
  | case2 c next cs hopen hclose =>
    simp only [List.cons_append, afterComment, if_neg hopen, if_pos hclose] at h
    exact congrArg some (List.append_cancel_right (Option.some.inj h))
  | case3 c next cs hopen hclose outer ih =>
    exact ih (by simpa only [List.cons_append, afterComment, if_neg hopen, if_pos hclose] using h)
  | case4 depth c next cs hopen hclose ih =>
    exact ih (by simpa only [List.cons_append, afterComment, if_neg hopen, if_neg hclose] using h)
  | case5 cs depth hshort =>
    -- the end of a comment has two characters
    have hlength := length_afterComment h
    rcases cs with _ | ⟨c, _ | ⟨next, cs⟩⟩
    · simp only [List.length_append, List.length_nil] at hlength
      omega
    · simp only [List.length_append, List.length_cons, List.length_nil] at hlength
      omega
    · exact (hshort c next cs rfl).elim

end

/-! ## Notes -/

/-- A note that stays in its comment. -/
def Contained (note : String) : Prop :=
  afterComment 0 (note ++ "*/").toList = some []

instance (note : String) : Decidable (Contained note) :=
  inferInstanceAs (Decidable (_ = _))

/-- **The comment of a note** ends with the end that is written for it, whatever follows, exactly if
the note is contained. -/
lemma afterComment_note (note after : String) :
    afterComment 0 (note ++ "*/" ++ after).toList = some after.toList ↔ Contained note := by
  rw [String.toList_append]
  exact ⟨fun h => afterComment_of_append (by simpa using h), fun h => afterComment_append h _⟩

/-- Without slashes nothing is opened, and the first end is an end of the comment itself. -/
lemma afterComment_slashless {depth : Nat} {rest : List Char} : ∀ {cs : List Char}, '/' ∉ cs →
    afterComment depth (cs ++ '*' :: rest) = afterComment depth ('*' :: rest)
  | [], _ => rfl
  | c :: cs, hcs => by
      obtain ⟨hc, hcs⟩ := not_or.mp fun h => hcs (List.mem_cons.mpr h)
      obtain ⟨next, tail, htail, hnext⟩ :
          ∃ next tail, cs ++ '*' :: rest = next :: tail ∧ next ≠ '/' := by
        cases cs with
        | nil => exact ⟨'*', rest, rfl, by decide⟩
        | cons next cs => exact ⟨next, cs ++ '*' :: rest, rfl, fun h => hcs (by simp [h])⟩
      have ih : afterComment depth (cs ++ '*' :: rest) = afterComment depth ('*' :: rest) :=
        afterComment_slashless hcs
      rw [← ih, List.cons_append, htail]
      simp only [afterComment]
      rw [if_neg fun h => hc h.1.symm, if_neg fun h => hnext h.2]

lemma slash_notMem {text : String} (h : Spelled (· ≠ '/') text) : '/' ∉ text.toList :=
  fun hmem => h '/' hmem rfl

/-- A note without slashes is contained. -/
lemma contained_of_slashless {note : String} (h : Spelled (· ≠ '/') note) : Contained note := by
  rw [Contained, String.toList_append]
  exact (afterComment_slashless (slash_notMem h)).trans (by decide)

/-! ## Texts without their comments -/

/-- What is left after a comment. -/
lemma uncommented_succ (depth : Nat) (cs : List Char) :
    uncommented (depth + 1) cs = (afterComment depth cs).bind (uncommented 0) := by
  fun_induction afterComment depth cs with
  | case1 depth c next cs hopen ih => simpa only [uncommented, if_pos hopen] using ih
  | case2 c next cs hopen hclose =>
    simp only [uncommented, if_neg hopen, if_pos hclose, Option.bind_some]
  | case3 c next cs hopen hclose outer ih =>
    simpa only [uncommented, if_neg hopen, if_pos hclose] using ih
  | case4 depth c next cs hopen hclose ih =>
    simpa only [uncommented, if_neg hopen, if_neg hclose] using ih
  | case5 cs depth hshort =>
    rcases cs with _ | ⟨c, _ | ⟨next, cs⟩⟩
    · rfl
    · rfl
    · exact (hshort c next cs rfl).elim

/-- A text without slashes has no comments. -/
lemma uncommented_slashless {rest : List Char} : ∀ {cs : List Char}, '/' ∉ cs →
    uncommented 0 (cs ++ rest) = (uncommented 0 rest).map (cs ++ ·)
  | [], _ => by simp
  | c :: cs, hcs => by
      obtain ⟨hc, hcs⟩ := not_or.mp fun h => hcs (List.mem_cons.mpr h)
      have ih : uncommented 0 (cs ++ rest) = (uncommented 0 rest).map (cs ++ ·) :=
        uncommented_slashless hcs
      have hcons : uncommented 0 (c :: (cs ++ rest)) = (uncommented 0 (cs ++ rest)).map (c :: ·) := by
        cases cs ++ rest with
        | nil => rfl
        | cons next tail => simp only [uncommented, if_neg fun h : c = '/' ∧ _ => hc h.1.symm]
      rw [List.cons_append, hcons, ih, Option.map_map]
      rfl

/-- Of a comment whose note is contained, the blank before it is left. -/
lemma uncommented_note {note : String} (h : Contained note) (rest : List Char) :
    uncommented 0 ((Piece.comment note).text.toList ++ rest) =
      (uncommented 0 rest).map (' ' :: ·) := by
  have htext : (Piece.comment note).text.toList ++ rest =
      [' '] ++ '/' :: '*' :: ((note ++ "*/").toList ++ rest) := by
    simp [Piece.text]
  rw [htext, uncommented_slashless (by decide)]
  simp only [uncommented, and_self, if_true]
  rw [uncommented_succ, afterComment_append h rest]
  rfl

namespace Phrase

/-- The notes of a phrase, in order. -/
def notes (phrase : Phrase) : List String :=
  phrase.filterMap fun
    | .comment note => some note
    | _ => none

/-- What a phrase says besides its notes, with blanks in their places. -/
def code : Phrase → String
  | [] => ""
  | .code text :: rest => text ++ Phrase.code rest
  | .name _ text :: rest => text ++ Phrase.code rest
  | .comment _ :: rest => " " ++ Phrase.code rest

/-- **A phrase without its comments** is what it says besides its notes, if they are contained and
there are no slashes among its words and names. -/
lemma uncommented_text {A : Alphabet} (hslash : ∀ c, A.code c → c ≠ '/') : ∀ {phrase : Phrase},
    phrase.Over A → (∀ note ∈ phrase.notes, Contained note) →
      uncommented 0 phrase.text.toList = some phrase.code.toList
  | [], _, _ => rfl
  | .code text :: rest, hover, hnotes => by
      obtain ⟨htext, hrest⟩ := over_cons.mp hover
      rw [text_cons, String.toList_append, Piece.text,
        uncommented_slashless (slash_notMem (htext.imp hslash)), uncommented_text hslash hrest hnotes]
      simp [code]
  | .name _ text :: rest, hover, hnotes => by
      obtain ⟨htext, hrest⟩ := over_cons.mp hover
      rw [text_cons, String.toList_append, Piece.text,
        uncommented_slashless (slash_notMem (htext.imp hslash)), uncommented_text hslash hrest hnotes]
      simp [code]
  | .comment note :: rest, hover, hnotes => by
      obtain ⟨hnote, hnotes⟩ := List.forall_mem_cons.mp hnotes
      rw [text_cons, String.toList_append, uncommented_note hnote,
        uncommented_text hslash (over_cons.mp hover).2 hnotes]
      simp [code]

lemma mem_notes {phrase : Phrase} {note : String} :
    note ∈ phrase.notes ↔ .comment note ∈ phrase := by
  simp only [notes, List.mem_filterMap]
  constructor
  · rintro ⟨_ | _ | other, hmem, hsame⟩
    · cases hsame
    · cases hsame
    · exact Option.some.inj hsame ▸ hmem
  · exact fun hmem => ⟨_, hmem, rfl⟩

end Phrase

/-- **Comments of a run.**  Whatever type is rendered, in whatever context and with whatever options,
each of its comments ends with the end that is written for it exactly if the note is contained.  Type
parameters stand outside of comments; if there are no slashes in their names, and all notes are
contained, then the text without its comments is what is written besides the notes.  And all notes are
contained, if there are no slashes in the texts that are kept from the source. -/
theorem planRun_comments (files : List SourceFile) (programs : List Source.Program)
    (options : GenerationOptions) :
    let plan := planRun options.merge files programs
    ∃ session, Session.prepare plan.table options plan.libraries = .ok session ∧
      ∀ s, session.SameNames s → ∀ ty o rendered t, (render ty o).exec s = (.ok rendered, t) →
        ∃ p : Phrasing, (phrase ty o).exec s = (.ok p, t) ∧ p.erase = rendered ∧
          (∀ before note after, p.withComment = before ++ .comment note :: after →
            rendered.withComment =
              Phrase.text before ++ " /*" ++ (note ++ "*/" ++ Phrase.text after) ∧
            (afterComment 0 (note ++ "*/" ++ Phrase.text after).toList =
              some (Phrase.text after).toList ↔ Contained note)) ∧
          ∀ A : Alphabet, (∀ c, A.code c → c ≠ '/') → plan.table.Over A → ty.Over A → o.Over A →
            ((∀ note ∈ p.withComment.notes, Contained note) →
              uncommented 0 rendered.withComment.toList = some p.withComment.code.toList) ∧
            ((∀ c, A.note c → c ≠ '/') → ∀ note ∈ p.withComment.notes, Contained note) := by
  intro plan
  obtain ⟨session, hprepare, hready⟩ := prepare_session plan.table options plan.libraries
  refine ⟨session, hprepare, fun s hs ty o rendered t hrender => ?_⟩
  -- the type is rendered into a phrase as well
  obtain ⟨p, hphrase, herase⟩ :
      ∃ p : Phrasing, (phrase ty o).exec s = (.ok p, t) ∧ p.erase = rendered := by
    have herases := phrase_erases ty o s
    rw [hrender] at herases
    rcases hexec : (phrase ty o).exec s with ⟨failure | p, t'⟩
    · simp [hexec, Except.map] at herases
    · simp only [hexec, Except.map, Prod.mk.injEq, Except.ok.injEq] at herases
      exact ⟨p, by rw [herases.2], herases.1.symm⟩
  have htext : rendered.withComment = p.withComment.text := by
    rw [Phrasing.text_withComment, herase]
  refine ⟨p, hphrase, herase, fun before note after hparts => ⟨?_, afterComment_note note _⟩,
    fun A hslash htable hty ho => ?_⟩
  · rw [htext, hparts, Phrase.text_append, Phrase.text_cons]
    simp only [Piece.text, String.append_assoc]
  · have hover := (phrase_over hready.settled_any (planRun_over hprepare hready htable) ty o hty ho
      s hs).2 p (by rw [hphrase])
    have hpieces : p.withComment.Over A := hover.withComment
    refine ⟨fun hnotes => ?_, fun hslashes note hnote => ?_⟩
    · rw [htext]
      exact Phrase.uncommented_text hslash hpieces hnotes
    · exact contained_of_slashless ((hpieces _ (Phrase.mem_notes.mp hnote)).imp hslashes)

set_option maxRecDepth 2000 in
/-- A literal that ends a comment.  What is written after the note is outside of the comment, and so
is the end that is written for it. -/
theorem generate_comment_ends_early :
    let text := "@JS()\nlibrary a;\n\nimport 'package:js/js.dart';\n\n@JS()\n" ++
      "external String /*'*/'*/ get x;\n\n@JS()\nexternal set x(String /*'*/'*/ value);\n"
    generate [⟨"a", "var x: '*/';"⟩] {} = .ok [⟨"a", text, [], none⟩] ∧
      (∀ s, ((render (.literal .string "'*/'") {}).exec s).1 = .ok ⟨"String", some "'*/'"⟩) ∧
      ¬ Contained "'*/'" ∧
      afterComment 0 ("'*/'" ++ "*/").toList = some "'*/".toList ∧
      uncommented 0 (Rendered.withComment ⟨"String", some "'*/'"⟩).toList =
        some "String '*/".toList := by
  refine ⟨?_, fun _ => rfl, by decide +kernel, by decide +kernel, by decide +kernel⟩
  let file : SourceFile := ⟨"a", "var x: '*/';"⟩
  let program : Source.Program := ⟨[.declaration false (.variables .var [⟨⟨4, 11⟩, .name "x",
    some ⟨⟨7, 11⟩, .literal .string⟩, none⟩])]⟩
  have hread : file.read = .ok program :=
    SourceFile.read_of_parse (by cbv) (by cbv) (by decide +kernel)
  have hstem : moduleStem file.path = "a" := (moduleStem_of_fileName (by cbv)).trans (by decide)
  exact generate_singleton hread hstem (by decide +kernel)

end Interop
