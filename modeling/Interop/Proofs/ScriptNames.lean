import Interop.Proofs.DeclaredNames
import Interop.Proofs.Phrases.Alphabets

/-!
# Names for the script

A declaration at the top of a library is tied to the script by its metadata: either the name that is
declared is the script's own, or a string literal holds the script's name.  The literal is written
as it is, though some characters do not stand for themselves in a literal of the target.

* `readLiteral` — a string literal of the target, as the target reads it.
* `readLiteral_eq_iff` — a text between quotes is read as it is exactly if none of its characters has
  a meaning of its own.
* `scriptTarget?` — the name that metadata ties a declaration to.
* `Session.Binds` — what is written for a symbol, and what it is tied to.
* **`generate_binds`** — what the declarations of a run are tied to.
* `generate_binds_dollar` — a name with a dollar sign inside a namespace.
-/

namespace Interop

open Source Work

/-! ## String literals of the target -/

/-- The character that an escape stands for, and what follows the escape. -/
def literalEscape : List Char → Option (Char × List Char)
  | [] => none
  | 'n' :: cs => some ('\n', cs)
  | 'r' :: cs => some ('\r', cs)
  | 't' :: cs => some ('\t', cs)
  | 'b' :: cs => some ('\x08', cs)
  | 'f' :: cs => some ('\x0c', cs)
  | 'v' :: cs => some ('\x0b', cs)
  | 'x' :: cs =>
    match cs with
    | a :: b :: rest =>
      if isHexDigit a && isHexDigit b then some (Char.ofNat (hexValue [a, b]), rest) else none
    | _ => none
  | 'u' :: cs => (scanCodePoint cs).map fun (code, rest) => (Char.ofNat code, rest)
  | c :: cs => some (c, cs)

/-- Characters that do not stand for themselves in a literal: a dollar sign begins a part that is
computed, a backslash an escape, a quote ends the literal, and a line may not end in it. -/
def literalMarks : List Char := ['$', '\\', '"', '\n', '\r']

/-- Of the marks, only the dollar sign is a character of names. -/
lemma isNamePart_mark_iff : ∀ mark ∈ literalMarks, isNamePart mark = true ↔ mark = '$' := by
  simp [literalMarks, isNamePart]

/-- The text of a literal up to its closing quote, and what follows.  There is none where a part is
computed. -/
def readLiteral : Nat → List Char → Option (List Char × List Char)
  | 0, _ => none
  | _ + 1, [] => none
  | fuel + 1, c :: cs =>
    if c == '"' then some ([], cs)
    else if c == '\\' then do
      let (value, rest) ← literalEscape cs
      let (more, rest) ← readLiteral fuel rest
      return (value :: more, rest)
    else if literalMarks.contains c then none
    else do
      let (more, rest) ← readLiteral fuel cs
      return (c :: more, rest)

lemma length_dropWhile_le {p : Char → Bool} (cs : List Char) :
    (cs.dropWhile p).length ≤ cs.length :=
  (List.dropWhile_suffix p).length_le

lemma scanCodePoint_length {cs rest : List Char} {code : Nat}
    (h : scanCodePoint cs = some (code, rest)) : rest.length < cs.length := by
  unfold scanCodePoint at h
  split at h
  · rename_i digits
    have hle := length_dropWhile_le (p := isHexDigit) digits
    split at h
    · rename_i hdrop
      rw [hdrop, List.length_cons] at hle
      dsimp only at h
      split_ifs at h
      cases h
      rw [List.length_cons]
      omega
    · cases h
  · split_ifs at h
    cases h
    simp only [List.length_cons]
    omega
  · cases h

/-- An escape takes characters. -/
lemma literalEscape_length {cs rest : List Char} {c : Char}
    (h : literalEscape cs = some (c, rest)) : rest.length < cs.length := by
  unfold literalEscape at h
  split at h
  · cases h
  all_goals try (cases h; exact Nat.lt_succ_self _)
  · split at h
    · split_ifs at h
      cases h
      simp only [List.length_cons]
      omega
    · cases h
  · obtain ⟨⟨code, after⟩, hscan, heq⟩ := Option.map_eq_some_iff.mp h
    cases heq
    exact (scanCodePoint_length hscan).trans (Nat.lt_succ_self _)

/-- A literal has the text that stands between its quotes, without marks, or it is shorter than what
stands there. -/
lemma readLiteral_cases : ∀ {fuel : Nat} {cs value rest : List Char},
    readLiteral fuel cs = some (value, rest) →
      (cs = value ++ '"' :: rest ∧ ∀ c ∈ value, c ∉ literalMarks) ∨
        value.length + rest.length + 1 < cs.length
  | fuel + 1, c :: cs, value, rest, h => by
      simp only [readLiteral, beq_iff_eq, List.contains_iff_mem] at h
      split_ifs at h with hquote hescape hmark
      · cases h
        exact Or.inl ⟨by rw [hquote]; rfl, by simp⟩
      · obtain ⟨⟨c', after⟩, hafter, h⟩ := Option.bind_eq_some_iff.mp h
        obtain ⟨⟨more, rest'⟩, hmore, h⟩ := Option.bind_eq_some_iff.mp h
        cases h
        have hshorter := literalEscape_length hafter
        refine Or.inr ?_
        rcases readLiteral_cases hmore with ⟨rfl, -⟩ | hlt
        · simp only [List.length_append, List.length_cons] at hshorter ⊢
          omega
        · simp only [List.length_cons] at hlt ⊢
          omega
      · obtain ⟨⟨more, rest'⟩, hmore, h⟩ := Option.bind_eq_some_iff.mp h
        cases h
        rcases readLiteral_cases hmore with ⟨rfl, hplain⟩ | hlt
        · exact Or.inl ⟨rfl, List.forall_mem_cons.mpr ⟨hmark, hplain⟩⟩
        · refine Or.inr ?_
          simp only [List.length_cons]
          omega

/-- Characters that are no marks stand for themselves. -/
lemma readLiteral_plain (rest : List Char) : ∀ {cs : List Char}, (∀ c ∈ cs, c ∉ literalMarks) →
    ∀ fuel, cs.length < fuel → readLiteral fuel (cs ++ '"' :: rest) = some (cs, rest)
  | [], _, fuel + 1, _ => by simp [readLiteral]
  | c :: cs, h, fuel + 1, hfuel => by
      obtain ⟨hc, hcs⟩ := List.forall_mem_cons.mp h
      have hquote : c ≠ '"' := by rintro rfl; exact hc (by decide)
      have hescape : c ≠ '\\' := by rintro rfl; exact hc (by decide)
      rw [List.length_cons] at hfuel
      simp [readLiteral, hquote, hescape, hc, readLiteral_plain rest hcs fuel (by omega)]

/-- **A text between quotes is read as it is** exactly if none of its characters is a mark. -/
lemma readLiteral_eq_iff {cs rest : List Char} {fuel : Nat} (hfuel : cs.length < fuel) :
    readLiteral fuel (cs ++ '"' :: rest) = some (cs, rest) ↔ ∀ c ∈ cs, c ∉ literalMarks := by
  refine ⟨fun h => ?_, fun h => readLiteral_plain rest h fuel hfuel⟩
  rcases readLiteral_cases h with ⟨-, hplain⟩ | hlt
  · exact hplain
  · simp only [List.length_append, List.length_cons] at hlt
    omega

/-! ## Metadata -/

/-- The name that metadata ties a declaration to: without a literal the name that is declared, and
otherwise the text of the literal, if that is all there is. -/
def scriptTarget? (declared annotation : String) : Option String :=
  match annotation.toList with
  | ['@', 'J', 'S', '(', ')'] => some declared
  | '@' :: 'J' :: 'S' :: '(' :: '"' :: cs =>
    match readLiteral (cs.length + 1) cs with
    | some (value, [')']) => some (String.ofList value)
    | _ => none
  | _ => none

lemma scriptTarget?_plain (declared : String) : scriptTarget? declared "@JS()" = some declared :=
  rfl

/-- **A name that is written into the metadata** is what the declaration is tied to, exactly if none
of its characters is a mark. -/
lemma scriptTarget?_scriptName (declared name : String) :
    scriptTarget? declared (scriptName name) = some name ↔ Spelled (· ∉ literalMarks) name := by
  have hlist : (scriptName name).toList =
      '@' :: 'J' :: 'S' :: '(' :: '"' :: (name.toList ++ '"' :: [')']) := by
    simp [scriptName]
  have hplain : readLiteral ((name.toList ++ '"' :: [')']).length + 1)
      (name.toList ++ '"' :: [')']) = some (name.toList, [')']) ↔ ∀ c ∈ name.toList, c ∉ literalMarks :=
    readLiteral_eq_iff (by simp only [List.length_append, List.length_cons]; omega)
  simp only [scriptTarget?, hlist]
  rw [Spelled, ← hplain]
  constructor
  · intro h
    split at h
    · rename_i value hread
      rw [hread, ← Option.some.inj h, String.toList_ofList]
    · cases h
  · intro h
    rw [h]
    simp

/-! ## What is written for a symbol -/

/-- The symbol's name as a script writes it: the namespaces around it and its own name, with dots. -/
def dottedName (names : List String) (symbol : Symbol) : String :=
  ".".intercalate (names ++ [symbol.name])

lemma spelled_dotted_iff : ∀ names : List String,
    Spelled (· ∉ literalMarks) (".".intercalate names) ↔
      ∀ name ∈ names, Spelled (· ∉ literalMarks) name
  | [] => by simp [String.intercalate]
  | [name] => by simp
  | name :: next :: rest => by
      have hdot : Spelled (· ∉ literalMarks) "." := by simp [Spelled, literalMarks]
      rw [String.intercalate_cons_cons, spelled_append, spelled_append, List.forall_mem_cons,
        spelled_dotted_iff (next :: rest), and_iff_left hdot]

/-- **What is written for a symbol**, and what it is tied to.  The declarations have the name that
the symbol was given.  Unless they are stubs they begin with metadata that ties them to the symbol's
own name in the script, with the namespaces around it; except that a name which is written into a
literal is read back as it is only if no part of it has a mark. -/
structure Session.Binds (base : Session) (id : Nat) (symbol : Symbol) (items : List Item) : Prop where
  emits : symbol.Emits (base.flatName symbol) items
  binds : ∀ item ∈ items, item.decl.kind ≠ .stub → ∃ name tag names,
    base.flatName symbol = some name ∧ item.decl.metadata.head? = some tag ∧
      base.table.Encloses symbol.parent names ∧
      (scriptTarget? name tag = some (dottedName names symbol) ↔
        tag = "@JS()" ∨ ∀ part ∈ names ++ [symbol.name], Spelled (· ∉ literalMarks) part)

/-- The metadata of declarations that are no stubs. -/
def Session.Tags (base : Session) (id : Nat) (symbol : Symbol) (items : List Item) : Prop :=
  ∀ item ∈ items, item.decl.kind ≠ .stub → ∃ name, base.flatName symbol = some name ∧
    item.decl.metadata.head? = some (scriptTag base.table id symbol name)

lemma Work.Ensures.and {α : Type} {base : Session} {w : Work α} {P Q : α → Prop}
    (hp : w.Ensures base P) (hq : w.Ensures base Q) : w.Ensures base fun a => P a ∧ Q a :=
  fun s hs => ⟨(hp s hs).1, fun a ha => ⟨(hp s hs).2 a ha, (hq s hs).2 a ha⟩⟩

section

variable {base : Session} {may : Failure → Prop} (hbase : base.Settled may) {id : Nat}
  {symbol : Symbol} (hid : base.table.get? id = some symbol)
include hbase

lemma functionItem_tags (name : Option String) (hname : name = base.flatName symbol)
    (group : MemberGroup) :
    (functionItem id symbol name group).Ensures base (base.Tags id symbol) := by
  unfold functionItem
  cases group.effective.signature? with
  | none => exact .pure fun _ h => by cases h
  | some sig =>
      refine .bind (.pointAt _) fun _ _ => ?_
      refine .bind (.of_traced hbase (SignatureText.of_traced sig)) fun text _ => ?_
      cases name with
      | none => exact .pure (List.forall_mem_singleton.mpr fun hstub => absurd rfl hstub)
      | some name =>
          exact .table_bind (.pure (List.forall_mem_singleton.mpr fun _ => ⟨name, hname.symm, rfl⟩))

include hid

lemma functionItems_tags (hkind : symbol.kind.isEmitted = true) :
    (functionItems id symbol).Ensures base (base.Tags id symbol) := by
  unfold functionItems
  by_cases hempty : symbol.callSignatures.isEmpty = true
  · rw [if_pos hempty]
    exact .bind (P := fun _ => False) (.throw _) fun _ h => h.elim
  · rw [if_neg hempty]
    refine .bind (nameOf_ensures hbase hid hkind) fun name hname => ?_
    refine .bind (.of_traced hbase (mergeMembers_traced _)) fun groups _ => ?_
    refine .bind (.forall_mapM fun group _ => functionItem_tags hbase name hname group)
      fun parts hparts => .pure fun item hitem => ?_
    obtain ⟨part, hpart, hitem⟩ := List.mem_flatten.mp hitem
    exact hparts part hpart item hitem

lemma variableItems_tags (hkind : symbol.kind.isEmitted = true) :
    (variableItems id symbol).Ensures base (base.Tags id symbol) := by
  unfold variableItems
  cases symbol.variableType? with
  | none => exact .throw _
  | some typed =>
      obtain ⟨type, readonly⟩ := typed
      refine .bind (.of_traced hbase (declaredType_traced _)) fun text _ => ?_
      refine .bind (nameOf_ensures hbase hid hkind) fun name hname => ?_
      cases name with
      | none => exact .pure (List.forall_mem_singleton.mpr fun hstub => absurd rfl hstub)
      | some name =>
          refine .table_bind (.pure fun item hitem _ => ⟨name, hname.symm, ?_⟩)
          cases readonly with
          | true =>
              obtain rfl := List.mem_singleton.mp hitem
              rfl
          | false =>
              rcases List.mem_pair.mp hitem with rfl | rfl <;> rfl

lemma classItem_tags (hkind : symbol.kind.isEmitted = true) :
    (classItem id symbol).Ensures base fun item => base.Tags id symbol [item] := by
  unfold classItem
  refine .bind (nameOf_ensures hbase hid hkind) fun name hname => ?_
  cases name with
  | none => exact .pure (List.forall_mem_singleton.mpr fun hstub => absurd rfl hstub)
  | some name =>
      refine .inScope _ ?_
      unfold classBody
      refine .bind (.of_traced hbase (Heritage.of_traced symbol)) fun heritage _ => ?_
      refine .table_bind ?_
      refine .bind (.of_traced hbase (mergeMembers_traced _)) fun groups _ => ?_
      refine .bind (.of_traced hbase (.mapM fun group _ => memberDecls_traced name group))
        fun members _ => .pure ?_
      exact List.forall_mem_singleton.mpr fun _ => ⟨name, hname.symm, rfl⟩

/-- **Declarations are tagged for the script** under the name that the symbol was given. -/
lemma symbolItems_tags (hkind : symbol.kind ≠ .nameSpace) (inside : Nat → Work (List Item)) :
    (symbolItems inside id symbol).Ensures base (base.Tags id symbol) := by
  refine .bind (.pointAt _) fun _ _ => ?_
  cases hk : symbol.kind with
  | nameSpace => exact absurd hk hkind
  | klass | interface | enum =>
      have hemitted : symbol.kind.isEmitted = true := by rw [hk]; rfl
      exact .bind (classItem_tags hbase hid hemitted) fun item hitem => .pure hitem
  | function => exact functionItems_tags hbase hid (by rw [hk]; rfl)
  | «variable» => exact variableItems_tags hbase hid (by rw [hk]; rfl)
  | «alias» | typeParameter => exact .pure fun _ h => by cases h

end

/-- **What a tag ties a declaration to.**  A declaration without a literal stands at the top of its
module and has the script's name. -/
lemma scriptTarget?_scriptTag {table : SymbolTable} {id : Nat} {symbol : Symbol} {module name : String}
    {names : List String} (hid : table.get? id = some symbol) (hambient : symbol.isAmbient = false)
    (hencloses : table.Encloses symbol.parent names)
    (hpath : symbol.path.segments = module :: names ++ [symbol.name]) :
    scriptTarget? name (scriptTag table id symbol name) = some (dottedName names symbol) ↔
      scriptTag table id symbol name = "@JS()" ∨
        ∀ part ∈ names ++ [symbol.name], Spelled (· ∉ literalMarks) part := by
  have hqualified : table.qualifiedName id = dottedName names symbol := by
    simp [SymbolTable.qualifiedName, hid, Symbol.qualifiedName, Symbol.scopedName, hambient, hpath,
      dottedName]
  unfold scriptTag
  split_ifs with hown
  · simp only [Bool.and_eq_true, Option.isNone_iff_eq_none, beq_iff_eq] at hown
    obtain ⟨hparent, rfl⟩ := hown
    rw [hparent] at hencloses
    cases hencloses
    simp [scriptTarget?_plain, dottedName]
  · have hliteral : scriptName (table.qualifiedName id) ≠ "@JS()" := by
      intro h
      have := congrArg String.toList h
      simp [scriptName] at this
    rw [hqualified] at hliteral ⊢
    rw [scriptTarget?_scriptName, dottedName, spelled_dotted_iff]
    exact (or_iff_right hliteral).symm

/-! ## Runs -/

/-- **What the declarations of a run are tied to.**  A library that is not given up is made of what
its symbols leave, in the order of the walk through its files.  Each declaration of a symbol that is
no stub has the name that the symbol was given, and metadata that ties it to the symbol's name in the
script.  Where the metadata holds no literal, the name that was given is the script's.  Where it holds
one, it does so exactly if no part of the name has a mark; and of the marks only the dollar sign is a
character of names. -/
theorem generate_binds {files : List SourceFile} {programs : List Program}
    (options : GenerationOptions) (hread : files.mapM SourceFile.read = .ok programs)
    (hlength : files.length ≤ ambientFile) :
    let plan := planRun options.merge files programs
    (∀ mark ∈ literalMarks, isNamePart mark = true ↔ mark = '$') ∧
    ∃ session units, Session.prepare plan.table options plan.libraries = .ok session ∧
      generate files options = .ok units ∧
      List.Forall₂ (fun library unit => unit.failure = none → ∃ imports items,
        unit.text = libraryText library.name imports items ∧
        session.Lists session.Binds
          (library.files.flatMap fun f => plan.table.fileWalk f.file) items)
        plan.libraries units := by
  intro plan
  refine ⟨isNamePart_mark_iff, ?_⟩
  obtain ⟨session, hprepare, hready⟩ := prepare_session plan.table options plan.libraries
  have hs := hready.settled_any
  have hnested : Catalogue.Nested _ (defineFiles _ (placeFiles files programs)).1 :=
    collect_nested (placeFiles files programs) placeFiles_isTop placeFiles_modules_nodup
  have hcalls : ∀ id s, session.table.get? id = some s → s.kind = .function → s.OnlyCalls := by
    rw [hready.table_eq]
    exact fun id s hs hkind => collect_calls (placeFiles files programs) hs hkind
  have hrelates : ∀ library ∈ plan.libraries, ∀ f ∈ library.files,
      session.Relates session.Binds f.file := by
    intro library hlibrary f hf
    refine ⟨fun id s hid hkind => ⟨by simp [Symbol.Emits, hkind], fun _ h => by cases h⟩, ?_⟩
    intro id s hid hfile hkind inside
    have hambient : s.file ≠ ambientFile := hfile ▸ planRun_file_ne hlength hlibrary hf
    have hid' : plan.table.get? id = some s := hready.table_eq ▸ hid
    obtain ⟨module, names, -, hencloses, hpath⟩ :=
      hnested.path id s hid' (collect_external _ hid' hambient)
    refine ((symbolItems_ensures hs hid (hcalls id s hid) hkind inside).and
      (symbolItems_tags hs hid hkind inside)).weaken fun items hitems => ⟨hitems.1, ?_⟩
    intro item hitem hstub
    obtain ⟨name, hname, htag⟩ := hitems.2 item hitem hstub
    have hencloses' : session.table.Encloses s.parent names := hready.table_eq ▸ hencloses
    exact ⟨name, _, names, hname, htag, hencloses',
      scriptTarget?_scriptTag hid (by simpa [Symbol.isAmbient] using hambient) hencloses' hpath⟩
  refine ⟨session, _, hprepare, generate_eq hread hprepare, ?_⟩
  refine (writeLibraries_lists hs plan.libraries 0 hrelates (.refl session)).imp ?_
  intro library unit hunit hfailure
  obtain ⟨imports, items, hlists, htext⟩ := hunit hfailure
  rw [hready.table_eq] at hlists
  exact ⟨imports, items, htext, hlists⟩

set_option maxRecDepth 2000 in
/-- A constant in a namespace: the literal names it as the script does. -/
theorem generate_binds_namespace :
    let file : SourceFile := ⟨"a", "namespace m \x7b const a: any; \x7d"⟩
    let item : Item := ⟨.ofFunction (getterHeader "" "dynamic" "a") (scriptName "m.a") [], []⟩
    ∃ program session imports items, [file].mapM SourceFile.read = .ok [program] ∧
      [file].length ≤ ambientFile ∧
      let plan := planRun none [file] [program]
      Session.prepare plan.table {} plan.libraries = .ok session ∧
      generate [file] {} = .ok [⟨"a", libraryText "a" [] [item], [], none⟩] ∧
      scriptTarget? "a" (scriptName "m.a") = some "m.a" ∧
      libraryText "a" [] [item] = libraryText "a" imports items ∧
      session.Lists session.Binds (plan.table.fileWalk 0) items := by
  intro file item
  let program : Program := ⟨[.declaration false (.nameSpace ⟨0, 29⟩ (.identifier "m")
    [.declaration false (.variables .const
      [⟨⟨20, 26⟩, .name "a", some ⟨⟨23, 26⟩, .keyword .any⟩, none⟩])])]⟩
  have hread : file.read = .ok program :=
    SourceFile.read_of_parse (by cbv) (by cbv) (by decide +kernel)
  have hreads := SourceFile.mapM_read_singleton hread
  have hstem : moduleStem file.path = "a" := (moduleStem_of_fileName (by cbv)).trans (by decide)
  have hgenerate : generate [file] {} = .ok [⟨"a", libraryText "a" [] [item], [], none⟩] :=
    generate_singleton hread hstem (by decide +kernel)
  have hlibraries : (planRun none [file] [program]).libraries = [⟨"a", [⟨"a", 0, []⟩]⟩] := by
    rw [planRun_eq, placeFiles_singleton file program hstem]
    decide +kernel
  obtain ⟨-, session, units, hprepare, hunits, hall⟩ :=
    generate_binds {} hreads (by decide : [file].length ≤ ambientFile)
  obtain rfl := Except.ok.inj (hunits.symm.trans hgenerate)
  have hlists := hlibraries ▸ hall
  obtain ⟨imports, items, htext, hitems⟩ := (List.forall₂_cons.mp hlists).1 rfl
  exact ⟨program, session, imports, items, hreads, by decide, hprepare, hgenerate,
    by decide +kernel, htext, by simpa using hitems⟩

set_option maxRecDepth 2000 in
/-- A variable in a namespace whose name has a dollar sign.  The target takes what follows the sign
for a part of the literal that is computed, so the literal has no text, and no name of the script. -/
theorem generate_binds_dollar :
    let file : SourceFile := ⟨"a", "namespace n \x7b const $a: any; \x7d"⟩
    let item : Item := ⟨.ofFunction (getterHeader "" "dynamic" "$a") (scriptName "n.$a") [], []⟩
    generate [file] {} = .ok [⟨"a", libraryText "a" [] [item], [], none⟩] ∧
      item.decl.kind ≠ .stub ∧ item.decl.metadata.head? = some "@JS(\"n.$a\")" ∧
      (∃ program, file.read = .ok program ∧ ∃ s, (planRun none [file] [program]).table.get? 19 = some s ∧
        dottedName ["n"] s = "n.$a") ∧
      scriptTarget? "$a" "@JS(\"n.$a\")" = none := by
  intro file item
  let program : Program := ⟨[.declaration false (.nameSpace ⟨0, 30⟩ (.identifier "n")
    [.declaration false (.variables .const
      [⟨⟨20, 27⟩, .name "$a", some ⟨⟨24, 27⟩, .keyword .any⟩, none⟩])])]⟩
  have hread : file.read = .ok program :=
    SourceFile.read_of_parse (by cbv) (by cbv) (by decide +kernel)
  have hstem : moduleStem file.path = "a" := (moduleStem_of_fileName (by cbv)).trans (by decide)
  have hname : ((planRun none [file] [program]).table.get? 19).map (dottedName ["n"]) =
      some "n.$a" := by
    rw [planRun_eq, placeFiles_singleton file program hstem]
    decide +kernel
  refine ⟨generate_singleton hread hstem (by decide +kernel), by decide, by decide +kernel,
    ⟨program, hread, Option.map_eq_some_iff.mp hname⟩, by decide +kernel⟩

end Interop
