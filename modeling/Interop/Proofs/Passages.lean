import Interop.Proofs.Libraries
import Interop.Proofs.Outline
import Interop.Proofs.Phrases.Drafts

/-!
# Lines of a library

The text of a library is written entry by entry.  An entry of the documentation follows `///`, and an
entry of a stub follows `//`.  The mark is written once for an entry, so an entry that holds ends of
lines has further lines, which begin as the entry goes on.  Texts that are kept from the source may
hold ends of lines, as a template does.

* `physicalLines` — the lines of a text.
* `Passage` — an entry with what is written before it; `Outline.passages` — those of an outline.
* `Outline.joined_passagesFrom` — the text of an outline is that of its passages.
* `Passage.marked_iff` — the lines of a passage begin with its mark exactly if the further lines of
  its entry do.
* **`planRun_passages`** — the lines of all libraries of a run.
-/

namespace Interop

/-! ## Lines -/

/-- The lines of a text.  A line ends with a line feed, a carriage return, or both in this order. -/
def physicalLines : List Char → List (List Char)
  | [] => []
  | c :: rest =>
    if c = '\n' ∨ c = '\r' ∧ rest.head? ≠ some '\n' then [] :: physicalLines rest
    else if c = '\r' then physicalLines rest
    else
      match physicalLines rest with
      | [] => [[c]]
      | line :: lines => (c :: line) :: lines

lemma physicalLines_newline (rest : List Char) :
    physicalLines ('\n' :: rest) = [] :: physicalLines rest := by
  simp [physicalLines]

lemma physicalLines_ne_nil : ∀ {cs : List Char}, cs ≠ [] → physicalLines cs ≠ []
  | [], h => absurd rfl h
  | c :: rest, _ => by
      simp only [physicalLines]
      split_ifs with hend hreturn
      · simp
      · -- a carriage return before a line feed, which ends the line
        refine physicalLines_ne_nil fun hnil => hend (.inr ⟨hreturn, ?_⟩)
        simp [hnil]
      · cases physicalLines rest <;> simp

/-- **What follows the end of a line** has lines of its own. -/
lemma physicalLines_append (cs rest : List Char) :
    physicalLines (cs ++ '\n' :: rest) = physicalLines (cs ++ ['\n']) ++ physicalLines rest := by
  induction cs with
  | nil => simp [physicalLines]
  | cons c cs ih =>
      have hhead : (cs ++ '\n' :: rest).head? = (cs ++ ['\n']).head? := by
        cases cs <;> rfl
      simp only [List.cons_append, physicalLines, hhead]
      split_ifs
      · rw [ih, List.cons_append]
      · exact ih
      · rw [ih]
        have hne : physicalLines (cs ++ ['\n']) ≠ [] := physicalLines_ne_nil (by simp)
        cases hlines : physicalLines (cs ++ ['\n']) with
        | nil => exact absurd hlines hne
        | cons line lines => rfl

/-- What has no end of a line goes in front of the first line. -/
lemma physicalLines_prefix {rest line : List Char} {lines : List (List Char)}
    (h : physicalLines rest = line :: lines) : ∀ {start : List Char},
      '\n' ∉ start → '\r' ∉ start → physicalLines (start ++ rest) = (start ++ line) :: lines
  | [], _, _ => h
  | c :: start, hfeed, hreturn => by
      obtain ⟨hc, hfeed⟩ := not_or.mp fun hmem => hfeed (List.mem_cons.mpr hmem)
      obtain ⟨hc', hreturn⟩ := not_or.mp fun hmem => hreturn (List.mem_cons.mpr hmem)
      have ih := physicalLines_prefix h hfeed hreturn
      rw [List.cons_append, physicalLines, if_neg (by simp [Ne.symm hc, Ne.symm hc']),
        if_neg (Ne.symm hc'), ih]
      rfl

/-- A line that begins with a mark, after blanks. -/
def Begins (mark : String) (line : List Char) : Prop :=
  mark.toList <+: line.dropWhile (· == ' ')

instance (mark : String) (line : List Char) : Decidable (Begins mark line) :=
  inferInstanceAs (Decidable (_ <+: _))

/-! ## Passages -/

/-- What an entry in the text of a library is. -/
inductive Purpose where
  | documentation
  /-- A part of a declaration that cannot be written in the target. -/
  | stub
  | declaration
  deriving DecidableEq, Repr

namespace Purpose

/-- What the line of an entry begins with. -/
def mark : Purpose → String
  | .documentation => "///"
  | .stub => "//"
  | .declaration => ""

/-- What is written before an entry. -/
def start : Purpose → String
  | .documentation => "/// "
  | .stub => "// "
  | .declaration => ""

end Purpose

/-- An entry in the text of a library. -/
structure Passage where
  purpose : Purpose
  depth : Nat
  entry : String
  deriving DecidableEq, Repr

namespace Passage

/-- The text of an entry, with its end of line. -/
def text (p : Passage) : String :=
  Outline.indentation p.depth ++ p.purpose.start ++ p.entry ++ "\n"

/-- The text of several entries. -/
def joined (passages : List Passage) : String :=
  String.join (passages.map text)

/-- Entries of one purpose at one depth. -/
def entries (purpose : Purpose) (depth : Nat) (texts : List String) : List Passage :=
  texts.map (⟨purpose, depth, ·⟩)

/-- The lines of an entry. -/
def lines (p : Passage) : List (List Char) :=
  physicalLines p.text.toList

/-- The lines of an entry after its first one. -/
def furtherLines (p : Passage) : List (List Char) :=
  (physicalLines (p.entry ++ "\n").toList).tail

/-- Every line of an entry begins with the mark, after the indentation. -/
def Marked (p : Passage) : Prop :=
  ∀ line ∈ p.lines, Begins p.purpose.mark line

instance (p : Passage) : Decidable p.Marked :=
  inferInstanceAs (Decidable (∀ line ∈ p.lines, _))

@[simp] lemma joined_nil : joined [] = "" := rfl

@[simp] lemma joined_cons (p : Passage) (rest : List Passage) :
    joined (p :: rest) = p.text ++ joined rest := by
  simp [joined]

@[simp] lemma joined_append (first second : List Passage) :
    joined (first ++ second) = joined first ++ joined second := by
  simp [joined]

/-- The lines of several entries are those of each. -/
lemma physicalLines_joined (passages : List Passage) :
    physicalLines (joined passages).toList = passages.flatMap lines := by
  induction passages with
  | nil => rfl
  | cons p rest ih =>
      have htext : (joined (p :: rest)).toList =
          (Outline.indentation p.depth ++ p.purpose.start ++ p.entry).toList ++
            '\n' :: (joined rest).toList := by
        simp [text]
      have hlines : p.lines = physicalLines
          ((Outline.indentation p.depth ++ p.purpose.start ++ p.entry).toList ++ ['\n']) := by
        simp [lines, text]
      rw [htext, physicalLines_append, ih, List.flatMap_cons, hlines]

lemma eq_blank_of_mem_indentation {depth : Nat} {c : Char}
    (h : c ∈ (Outline.indentation depth).toList) : c = ' ' := by
  simp only [Outline.indentation, String.toList_join, List.mem_flatMap, List.mem_replicate] at h
  obtain ⟨_, ⟨-, rfl⟩, hc⟩ := h
  simpa using hc

/-- What is written before an entry has no ends of lines. -/
lemma notMem_start (p : Passage) {c : Char} (h : c = '\n' ∨ c = '\r') :
    c ∉ (Outline.indentation p.depth ++ p.purpose.start).toList := by
  rw [String.toList_append, List.mem_append]
  rintro (hpad | hstart)
  · rcases h with rfl | rfl <;> exact absurd (eq_blank_of_mem_indentation hpad) (by decide)
  · revert hstart
    cases p.purpose <;> rcases h with rfl | rfl <;> decide

/-- What is written before an entry goes in front of its first line. -/
lemma lines_eq (p : Passage) : ∃ first, p.lines =
    ((Outline.indentation p.depth ++ p.purpose.start).toList ++ first) :: p.furtherLines := by
  have hne : physicalLines (p.entry ++ "\n").toList ≠ [] := physicalLines_ne_nil (by simp)
  obtain ⟨first, further, hlines⟩ := List.exists_cons_of_ne_nil hne
  have hfurther : p.furtherLines = further := by rw [furtherLines, hlines, List.tail_cons]
  have htext : p.text.toList =
      (Outline.indentation p.depth ++ p.purpose.start).toList ++ (p.entry ++ "\n").toList := by
    simp [text]
  refine ⟨first, ?_⟩
  rw [lines, htext, hfurther]
  exact physicalLines_prefix hlines (p.notMem_start (.inl rfl)) (p.notMem_start (.inr rfl))

/-- The first line of an entry begins with its mark. -/
lemma begins_first (p : Passage) (first : List Char) :
    Begins p.purpose.mark ((Outline.indentation p.depth ++ p.purpose.start).toList ++ first) := by
  rw [Begins, String.toList_append, List.append_assoc, List.dropWhile_append_of_pos fun c hc => by
    simp [eq_blank_of_mem_indentation hc]]
  cases p.purpose with
  | documentation => exact List.prefix_append "///".toList (' ' :: first)
  | stub => exact List.prefix_append "//".toList (' ' :: first)
  | declaration => exact List.nil_prefix

/-- **The lines of an entry begin with its mark** exactly if its further lines do. -/
lemma marked_iff (p : Passage) :
    p.Marked ↔ ∀ line ∈ p.furtherLines, Begins p.purpose.mark line := by
  obtain ⟨first, hlines⟩ := p.lines_eq
  rw [Marked, hlines, List.forall_mem_cons]
  exact and_iff_right (p.begins_first first)

lemma marked_of_declaration {p : Passage} (h : p.purpose = .declaration) : p.Marked := by
  intro line _
  rw [h]
  exact List.nil_prefix

end Passage

/-- Texts without ends of lines. -/
def Alphabet.oneLine : Alphabet where
  code c := c ≠ '\n' ∧ c ≠ '\r'
  note c := c ≠ '\n' ∧ c ≠ '\r'
  plain c hc := by
    constructor <;>
      · rintro rfl
        revert hc
        decide
  widens _ h := h

/-- An entry without ends of lines has one line. -/
lemma Passage.marked_of_spelled {p : Passage} (h : Spelled Alphabet.oneLine.note p.entry) :
    p.Marked := by
  have hlines : physicalLines (p.entry ++ "\n").toList = [p.entry.toList] := by
    rw [String.toList_append]
    have hline : physicalLines (p.entry.toList ++ ['\n']) = (p.entry.toList ++ []) :: [] :=
      physicalLines_prefix (physicalLines_newline []) (fun hmem => (h _ hmem).1 rfl)
        fun hmem => (h _ hmem).2 rfl
    rwa [List.append_nil] at hline
  rw [marked_iff, furtherLines, hlines]
  simp

/-! ## Passages of an outline -/

/-- The first line of the text of a declaration; a class has its body behind it. -/
def OutputDecl.headline (d : OutputDecl) : String :=
  match d.kind with
  | .klass => d.header ++ " \x7b"
  | _ => d.header

/-- What the metadata and the first line of a declaration are. -/
def OutputDecl.purpose (d : OutputDecl) : Purpose :=
  match d.kind with
  | .stub => .stub
  | _ => .declaration

/-- The entries of a declaration itself. -/
def OutputDecl.passages (d : OutputDecl) (depth : Nat) : List Passage :=
  Passage.entries .documentation depth d.docs ++
    Passage.entries d.purpose depth (d.metadata ++ [d.headline])

namespace Outline

/-- The entries of the declarations of a library, with those of the blank lines between them. -/
def separatedPassages : Option DeclKind → List (Option DeclKind × List Passage) → List Passage
  | _, [] => []
  | previous, (kind, passages) :: rest =>
    (if separator previous kind = "" then [] else [⟨.declaration, 0, ""⟩]) ++ passages ++
      separatedPassages kind rest

/-- The entries of a declaration at a depth and of all below it. -/
def passagesFrom (o : Outline) : (levels : Nat) → (depth : Nat) → (id : Nat) → List Passage
  | 0, _, _ => []
  | levels + 1, depth, id =>
    match o.get? id with
    | none => []
    | some decl => decl.passages depth ++
      match decl.kind with
      | .stub => []
      | .library => separatedPassages none (decl.children.map fun child =>
          ((o.get? child).map (·.kind), o.passagesFrom levels depth child))
      | .klass => decl.children.flatMap (o.passagesFrom levels (depth + 1)) ++
          [⟨.declaration, depth, "\x7d"⟩]
      | .importDirective | .member | .function =>
        decl.children.flatMap (o.passagesFrom levels (depth + 1))

/-- The entries of an outline. -/
def passages (o : Outline) : List Passage :=
  o.passagesFrom (o.size + 1) 0 0

/-! ### Text -/

lemma joined_entries (purpose : Purpose) (depth : Nat) (texts : List String) :
    Passage.joined (Passage.entries purpose depth texts) =
      Outline.lines (indentation depth ++ purpose.start) texts := by
  simp only [Passage.joined, Passage.entries, Outline.lines, List.map_map]
  rfl

lemma joined_separatedPassages : ∀ (previous : Option DeclKind)
    (parts : List (Option DeclKind × List Passage)),
    Passage.joined (separatedPassages previous parts) =
      separated previous (parts.map fun part => (part.1, Passage.joined part.2))
  | _, [] => rfl
  | previous, (kind, passages) :: rest => by
      have hseparator : Passage.joined
          (if separator previous kind = "" then [] else [⟨.declaration, 0, ""⟩]) =
            separator previous kind := by
        unfold separator
        cases previous == some .importDirective && kind == some .importDirective <;> rfl
      simp only [separatedPassages, Passage.joined_append, List.map_cons, separated, hseparator,
        joined_separatedPassages kind rest]

lemma joined_flatMap {α : Type} (f : α → List Passage) (xs : List α) :
    Passage.joined (xs.flatMap f) = String.join (xs.map fun x => Passage.joined (f x)) := by
  induction xs with
  | nil => rfl
  | cons x xs ih => simp [ih]

/-- **The text of an outline** is that of its entries. -/
lemma joined_passagesFrom (o : Outline) (levels : Nat) : ∀ depth id,
    Passage.joined (o.passagesFrom levels depth id) = o.renderFrom levels depth id := by
  induction levels with
  | zero => exact fun _ _ => rfl
  | succ levels ih =>
      intro depth id
      simp only [passagesFrom, renderFrom]
      cases hid : o.get? id with
      | none => rfl
      | some decl =>
          have hdocs := joined_entries .documentation depth decl.docs
          have hhead := joined_entries decl.purpose depth (decl.metadata ++ [decl.headline])
          have hclose : Passage.joined [⟨.declaration, depth, "\x7d"⟩] =
              indentation depth ++ "\x7d\n" := by
            simp [Passage.text, Purpose.start, String.append_assoc]
          simp only [OutputDecl.passages, Passage.joined_append, hdocs, hhead, Purpose.start]
          cases hkind : decl.kind with
          | stub => simp [OutputDecl.purpose, OutputDecl.headline, hkind]
          | library =>
              simp [OutputDecl.purpose, OutputDecl.headline, hkind, joined_separatedPassages, ih,
                Function.comp_def]
          | klass =>
              simp only [OutputDecl.purpose, OutputDecl.headline, hkind, Passage.joined_append,
                joined_flatMap, ih, hclose, String.append_empty, String.append_assoc]
          | importDirective | member | function =>
              simp only [OutputDecl.purpose, OutputDecl.headline, hkind, joined_flatMap, ih,
                String.append_empty]

/-! ### Declarations -/

lemma mem_separatedPassages {p : Passage} : ∀ {previous : Option DeclKind}
    {parts : List (Option DeclKind × List Passage)}, p ∈ separatedPassages previous parts →
      p.purpose = .declaration ∨ ∃ part ∈ parts, p ∈ part.2
  | _, [], h => by cases h
  | previous, (kind, passages) :: rest, h => by
      simp only [separatedPassages, List.mem_append] at h
      rcases h with (h | h) | h
      · split_ifs at h
        · cases h
        · exact .inl (congrArg Passage.purpose (List.mem_singleton.mp h))
      · exact .inr ⟨_, List.mem_cons_self, h⟩
      · rcases mem_separatedPassages h with h | ⟨part, hpart, h⟩
        · exact .inl h
        · exact .inr ⟨part, List.mem_cons_of_mem _ hpart, h⟩

/-- **The entries of an outline** are those of its declarations, ends of classes and blank lines. -/
lemma mem_passagesFrom {o : Outline} {p : Passage} (levels : Nat) : ∀ {depth id},
    p ∈ o.passagesFrom levels depth id → p.purpose = .declaration ∨
      ∃ id d depth, o.get? id = some d ∧ p ∈ d.passages depth := by
  induction levels with
  | zero => exact fun h => by cases h
  | succ levels ih =>
      intro depth id h
      simp only [passagesFrom] at h
      cases hid : o.get? id with
      | none => simp [hid] at h
      | some decl =>
          simp only [hid, List.mem_append] at h
          rcases h with h | h
          · exact .inr ⟨id, decl, depth, hid, h⟩
          · cases hkind : decl.kind with
            | stub => simp [hkind] at h
            | library =>
                simp only [hkind] at h
                rcases mem_separatedPassages h with h | ⟨part, hpart, h⟩
                · exact .inl h
                · obtain ⟨child, -, rfl⟩ := List.mem_map.mp hpart
                  exact ih h
            | klass =>
                simp only [hkind, List.mem_append, List.mem_flatMap, List.mem_singleton] at h
                rcases h with ⟨child, -, h⟩ | rfl
                · exact ih h
                · exact .inl rfl
            | importDirective | member | function =>
                simp only [hkind, List.mem_flatMap] at h
                obtain ⟨child, -, h⟩ := h
                exact ih h

/-- All declarations of an outline have a property, which does not depend on their places. -/
def All (P : OutputDecl → Prop) (o : Outline) : Prop :=
  ∀ id d, o.get? id = some d → P d.bare

section

variable {P : OutputDecl → Prop} {o : Outline}

lemma All.add (h : o.All P) {decl : OutputDecl} (hdecl : P decl.bare) (parent : Nat) :
    (o.add decl (some parent)).All P := by
  intro id d hid
  have hbare := o.get?_add decl parent id
  rw [hid, Option.map_some] at hbare
  split_ifs at hbare
  · exact Option.some.inj hbare ▸ hdecl
  · obtain ⟨other, hother, hsame⟩ := Option.map_eq_some_iff.mp hbare.symm
    exact hsame ▸ h id other hother

lemma All.foldl_add {α : Type} {decl : α → OutputDecl} (parent : Nat) : ∀ {xs : List α}
    {o : Outline}, o.All P → (∀ x ∈ xs, P (decl x).bare) →
      (xs.foldl (fun o x => o.add (decl x) (some parent)) o).All P
  | [], _, h, _ => h
  | x :: xs, o, h, hxs => by
      obtain ⟨hx, hrest⟩ := List.forall_mem_cons.mp hxs
      rw [List.foldl_cons]
      exact All.foldl_add parent (h.add hx parent) hrest

lemma All.foldl_addItem : ∀ {items : List Item} {o : Outline}, o.All P →
    (∀ item ∈ items, ∀ d ∈ item.decl :: item.members, P d.bare) →
      (items.foldl (fun o item => o.addItem item 0) o).All P
  | [], _, h, _ => h
  | item :: items, o, h, hitems => by
      obtain ⟨hitem, hrest⟩ := List.forall_mem_cons.mp hitems
      obtain ⟨hdecl, hmembers⟩ := List.forall_mem_cons.mp hitem
      rw [List.foldl_cons]
      exact All.foldl_addItem (All.foldl_add o.size (h.add hdecl 0) hmembers) hrest

/-- The declarations of a library are its directive, its imports and its items. -/
lemma all_libraryOutline {name : String} {imports : List String} {items : List Item}
    (hlibrary : P (.ofLibrary name)) (himport : ∀ file, P (.ofImport file))
    (hitems : ∀ item ∈ items, ∀ d ∈ item.decl :: item.members, P d.bare) :
    (libraryOutline name imports items).All P := by
  have hroot : (({} : Outline).add (.ofLibrary name) none).All P := by
    rintro (_ | id) d hid
    · obtain rfl := Option.some.inj hid
      exact hlibrary
    · cases hid
  exact All.foldl_addItem (All.foldl_add 0 hroot fun file _ => himport file) hitems

end

end Outline

/-! ## Passages of a run -/

lemma OutputDecl.purpose_of_ne {d : OutputDecl} (h : d.kind ≠ .stub) : d.purpose = .declaration := by
  unfold purpose
  split
  · exact absurd ‹_› h
  · rfl

/-- A declaration that puts nothing in comments. -/
lemma OutputDecl.marked_of_uncommented {d : OutputDecl} (hkind : d.kind ≠ .stub)
    (hdocs : d.docs = []) (depth : Nat) : ∀ p ∈ d.passages depth, p.Marked := by
  intro p hp
  rw [passages, hdocs, purpose_of_ne hkind] at hp
  obtain ⟨entry, -, rfl⟩ := List.mem_map.mp hp
  exact Passage.marked_of_declaration rfl

/-- Without ends of lines in what a declaration puts in comments, its entries are marked. -/
lemma Draft.Over.marked {d : Draft} (h : d.Over .oneLine) (depth : Nat) :
    ∀ p ∈ d.decl.passages depth, p.Marked := by
  intro p hp
  rcases List.mem_append.mp hp with hp | hp
  · obtain ⟨doc, hdoc, rfl⟩ := List.mem_map.mp hp
    exact Passage.marked_of_spelled (h.docs doc hdoc)
  · obtain ⟨entry, hentry, rfl⟩ := List.mem_map.mp hp
    by_cases hstub : d.kind = .stub
    · obtain ⟨hheader, hmetadata⟩ := h.stub hstub
      have hheadline : d.decl.headline = d.header.text := by
        simp only [OutputDecl.headline, Draft.decl, hstub]
      refine Passage.marked_of_spelled ?_
      rcases List.mem_append.mp hentry with hline | hline
      · exact hmetadata entry hline
      · have hentry := (List.mem_singleton.mp hline).trans hheadline
        exact hentry ▸ Phrase.spelled_text (A := .oneLine) ⟨by decide, by decide⟩ hheader
    · exact Passage.marked_of_declaration (OutputDecl.purpose_of_ne (d := d.decl) hstub)

/-- **Lines of a run.**  The text of a library that is not given up is written entry by entry, from
the declarations of its files.  The lines of an entry of the documentation all begin with `///`, and
those of an entry of a stub with `//`, exactly if the further lines do that the entry itself brings
along.  If there are no ends of lines in the texts that are kept from the source, then all lines do. -/
theorem planRun_passages (files : List SourceFile) (programs : List Source.Program)
    (options : GenerationOptions) :
    let plan := planRun options.merge files programs
    ∃ session, Session.prepare plan.table options plan.libraries = .ok session ∧
      ∀ i unit, ((writeLibraries 0 plan.libraries).run session).1[i]? = some unit →
        unit.failure = none → ∃ (library : LibraryPlan) (items : List Item) (imports : List String),
          plan.libraries[i]? = some library ∧
          ((filesItems library.files).run (session.enter i)).1.1 = .ok items ∧
          unit.text = libraryText library.name imports items ∧
          let passages := (libraryOutline library.name imports items).passages
          unit.text = Passage.joined passages ∧
          physicalLines unit.text.toList = passages.flatMap Passage.lines ∧
          (∀ p ∈ passages, p.Marked ↔ ∀ line ∈ p.furtherLines, Begins p.purpose.mark line) ∧
          (plan.table.Over .oneLine → ∀ p ∈ passages, p.Marked) := by
  intro plan
  obtain ⟨session, hprepare, hready⟩ := prepare_session plan.table options plan.libraries
  refine ⟨session, hprepare, fun i unit hunit hkept => ?_⟩
  obtain ⟨library, items, hlibrary, -, hitems, htext⟩ := hready.kept_library hunit hkept
  refine ⟨library, items, _, hlibrary, hitems, htext, ?_⟩
  have hjoined : ∀ imports, libraryText library.name imports items =
      Passage.joined (libraryOutline library.name imports items).passages := fun imports =>
    (Outline.joined_passagesFrom _ _ 0 0).symm
  refine ⟨htext.trans (hjoined _), by rw [htext, hjoined, Passage.physicalLines_joined],
    fun p _ => p.marked_iff, fun htable p hp => ?_⟩
  -- the declarations are those of drafts, whose texts are from the table
  have hover : session.Over .oneLine := planRun_over hprepare hready htable
  obtain ⟨hdrafts, -⟩ := filesItems_drafts library.files (session.enter i)
  rcases hexec : ((filesDrafts library.files).exec (session.enter i)).1 with failure | drafts
  · simp [hitems, hexec, Except.map] at hdrafts
  · simp only [hitems, hexec, Except.map, Except.ok.injEq] at hdrafts
    have hall := (filesDrafts_over hready.settled_any hover (fun _ h => h) library.files
      (session.enter i) ⟨rfl, rfl, rfl, rfl⟩).2 drafts hexec
    rcases Outline.mem_passagesFrom _ hp with hdeclaration | ⟨id, d, depth, hd, hp⟩
    · exact Passage.marked_of_declaration hdeclaration
    · refine Outline.all_libraryOutline
        (P := fun d => ∀ depth, ∀ p ∈ d.passages depth, p.Marked) ?_ ?_ ?_ id d hd depth p hp
      · exact OutputDecl.marked_of_uncommented (by simp [OutputDecl.ofLibrary]) rfl
      · exact fun file => OutputDecl.marked_of_uncommented (by simp [OutputDecl.ofImport]) rfl
      · intro item hitem decl hdecl
        obtain ⟨draftItem, hdraftItem, rfl⟩ := List.mem_map.mp (hdrafts ▸ hitem)
        obtain ⟨draft, hdraft, rfl⟩ := List.mem_map.mp
          (show decl ∈ draftItem.drafts.map Draft.decl from hdecl)
        exact (hall draftItem hdraftItem draft hdraft).marked

set_option maxRecDepth 2000 in
/-- A template that holds the end of a line.  The member that has it is kept as a stub, whose second
line is not commented out. -/
theorem generate_stub_breaks :
    let source := "interface A \x7b 'a-b': `x\ny`; \x7d"
    let stub : Passage := ⟨.stub, 1, "external String /*`x\ny`*/ get a-b;"⟩
    let item : Item :=
      ⟨⟨.klass, "abstract class A", ["@JS()", "@anonymous"], [], none, []⟩, [.ofStub stub.entry]⟩
    generate [⟨"a", source⟩] {} = .ok [⟨"a", libraryText "a" [] [item], [], none⟩] ∧
      stub ∈ (libraryOutline "a" [] [item]).passages ∧
      stub.lines = ["  // external String /*`x".toList, "y`*/ get a-b;".toList] ∧
      ¬ stub.Marked := by
  intro source stub item
  refine ⟨?_, by decide +kernel, by decide +kernel, by decide +kernel⟩
  let file : SourceFile := ⟨"a", source⟩
  let program : Source.Program := ⟨[.declaration false (.interface ⟨⟨0, 29⟩, "A", [], [],
    [.property ⟨14, 27⟩ (.string "a-b") false false (some ⟨⟨21, 26⟩, .literal .template⟩)]⟩)]⟩
  have hread : file.read = .ok program :=
    SourceFile.read_of_parse (by cbv) (by cbv) (by decide +kernel)
  have hstem : moduleStem file.path = "a" := (moduleStem_of_fileName (by cbv)).trans (by decide)
  exact generate_singleton hread hstem (by decide +kernel)

end Interop
