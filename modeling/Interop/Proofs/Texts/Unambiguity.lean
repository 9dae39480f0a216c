import Interop.Proofs.Termination
import Interop.Proofs.Texts.Sketches

/-!
# Source text is unambiguous

Types that have the same text look the same: they are built alike from leaves with the same texts
and from the same names.  How the text of a type begins tells an operand in brackets from the
parameters of a function, and what follows an operand tells how it is part of a type.

* `Opening` — how the texts of types begin.
* `Sketch.readPrimary_named` and its like — types are read back if the types in them are.
* `Ty.isRead` — all legible types are read back.
* **`Ty.sketch_eq_of_text_eq`** — types that have the same text look the same.
-/

namespace Interop

open Filter

namespace Sketch

variable {table : SymbolTable} {n : Nat} {type : Reader Sketch}

/-! ## How texts begin -/

/-- What may follow the word that the text of a type begins with, or stand in its place. -/
def openingMarks : List Char := '(' :: '<' :: '\x7b' :: primaryEnds

/-- **How the text of a type begins**: with a word or a bracket, and not as a parameter. -/
structure Opening (text : List Char) : Prop where
  first : ∃ c, text.head? = some c ∧ (c ∉ punctuation ∨ c ∈ ['(', '<', '[', '\x7b'])
  next : Ends openingMarks (text.dropWhile (· ∉ punctuation))

namespace Opening

variable {text rest : List Char}

lemma word {w : String} (h : IsWord w) : Opening w.toList where
  first := by
    obtain ⟨c, more, hw, hc⟩ := h.exists_cons
    exact ⟨c, by rw [hw, List.head?_cons], .inl hc⟩
  next := by
    have hdrop : (w.toList ++ []).dropWhile (· ∉ punctuation) = [] := dropWhile_plain h.plain .nil
    rw [List.append_nil] at hdrop
    rw [hdrop]
    exact .nil

lemma bracket (h : text.head?.any (· ∈ ['(', '<', '[', '\x7b']) = true) : Opening text := by
  obtain ⟨c, hc, hbracket⟩ := (Option.any_eq_true ..).mp h
  rw [decide_eq_true_eq] at hbracket
  obtain ⟨more, rfl⟩ : ∃ more, text = c :: more := ⟨text.tail, (List.cons_head?_tail hc).symm⟩
  refine ⟨⟨c, rfl, .inr hbracket⟩, ?_⟩
  have hmark : c ∈ punctuation ∧ c ∈ openingMarks := by
    simp only [List.mem_cons, List.not_mem_nil, or_false] at hbracket
    rcases hbracket with rfl | rfl | rfl | rfl <;> decide
  rw [List.dropWhile_cons_of_neg (by simp [hmark.1])]
  exact Ends.cons.mpr hmark.2

lemma append (h : Opening text) (hrest : Ends openingMarks rest) : Opening (text ++ rest) where
  first := by
    obtain ⟨c, hc, hfirst⟩ := h.first
    exact ⟨c, by rw [List.head?_append, hc]; rfl, hfirst⟩
  next := by
    rw [List.dropWhile_append]
    split_ifs with hplain
    · have hdrop : ([] ++ rest).dropWhile (· ∉ punctuation) = rest :=
        dropWhile_plain nofun (hrest.mono (by decide))
      rw [List.nil_append] at hdrop
      rwa [hdrop]
    · obtain ⟨mark, more, hmore⟩ := List.exists_cons_of_ne_nil
        fun hnil => hplain (List.isEmpty_iff.mpr hnil)
      have hnext := h.next
      rw [hmore] at hnext ⊢
      exact Ends.cons.mpr (Ends.cons.mp hnext)

/-- A list begins as its first item does. -/
lemma joined {mark first : String} (h : Opening first.toList)
    (hmark : mark.toList.head?.any (· ∈ openingMarks) = true) (texts : List String) :
    Opening (mark.intercalate (first :: texts)).toList := by
  obtain ⟨more, hmore, rfl | ⟨others, rfl⟩⟩ := exists_intercalate_cons mark first texts
  · rwa [hmore, String.append_empty]
  · rw [hmore, String.toList_append, String.toList_append]
    exact h.append (.of_first hmark _)

/-- It is not taken for a parameter. -/
lemma not_params (h : Opening text) : opensParams text = false := by
  obtain ⟨c, hc, hfirst⟩ := h.first
  refine decide_eq_false ?_
  rintro (hhead | hhead)
  · rw [hc] at hhead
    simp only [List.mem_cons, Option.some.injEq, List.not_mem_nil, or_false] at hhead
    rcases hhead with rfl | rfl <;> revert hfirst <;> decide
  · simp only [List.mem_cons, List.not_mem_nil, or_false] at hhead
    rcases hhead with hhead | hhead <;>
      exact absurd (h.next _ hhead) (by decide)

/-- The text of a type does not begin with what closes a list. -/
lemma not_next (h : Opening text) {characters : String}
    (hclose : characters.toList.head?.any (· ∈ [')', ']', '>']) = true) (rest : List Char) :
    ¬characters.toList <+: text ++ rest := by
  obtain ⟨c, hc, hfirst⟩ := h.first
  obtain ⟨mark, hmark, hmem⟩ := (Option.any_eq_true ..).mp hclose
  rintro ⟨more, heq⟩
  have hhead : (text ++ rest).head? = some c := by rw [List.head?_append, hc]; rfl
  rw [← heq, List.head?_append, hmark] at hhead
  obtain rfl : mark = c := Option.some.inj hhead
  simp only [decide_eq_true_eq, List.mem_cons, List.not_mem_nil, or_false] at hmem
  rcases hmem with rfl | rfl | rfl <;> revert hfirst <;> decide

end Opening

/-- What follows the bracket of a signature is not taken for a type. -/
lemma opensParams_params {params : List Param} (hnames : ∀ p ∈ params, IsWord p.name)
    (rest : List Char) : opensParams
      ((", ".intercalate (params.map (·.text table)) ++ ")").toList ++ rest) = true := by
  cases params with
  | nil => simp [opensParams]
  | cons p ps =>
      obtain ⟨more, hmore, -⟩ :=
        exists_intercalate_cons ", " (p.text table) (ps.map (·.text table))
      rw [List.map_cons, hmore, p.text_eq]
      cases p.rest with
      | true => simp [opensParams]
      | false =>
          refine decide_eq_true (.inr ?_)
          simp only [Bool.false_eq_true, if_false, String.empty_append, String.toList_append,
            List.append_assoc]
          rw [dropWhile_plain (hnames p List.mem_cons_self).plain]
          · cases p.optional <;> simp
          · cases p.optional <;> simp [punctuation]

/-- A function type is not taken for an operand. -/
lemma opensFunction_signature {s : Signature} {arrow : String}
    (hnames : ∀ p ∈ s.params, IsWord p.name) (rest : List Char) :
    opensFunction ((s.textWith table arrow).toList ++ rest) = true := by
  rw [s.textWith_eq]
  obtain ⟨typeParams, params, result⟩ := s
  cases typeParams with
  | nil =>
      have hparams : opensParams ((", ".intercalate (params.map (·.text table)) ++ ")").toList ++
          ((arrow ++ result.textAs table false).toList ++ rest)) = true :=
        opensParams_params hnames _
      simpa [inAngles, opensFunction] using hparams
  | cons name names => simp [inAngles, opensFunction]

/-! ## Types -/

/-- How arrays of a type are written. -/
def suffixes : Nat → String
  | 0 => ""
  | k + 1 => "[]" ++ suffixes k

/-- Arrays of arrays. -/
def arrays : Nat → Sketch → Sketch
  | 0, sketch => sketch
  | k + 1, sketch => arrays k (.array sketch)

lemma readPrimary_named {name : String} {args : List Ty} (hname : IsWord name)
    (hn : args.length ≤ n)
    (hargs : ∀ ty ∈ args, ReadsType table type ty) :
    Reads (readPrimary n type) (Ends primaryEnds)
      (name ++ inAngles (Ty.texts table false args)) (.named name (Ty.sketches table args)) := by
  have hangled := Reads.angled hn (by simp [typeEnds]) (by simp [typeEnds]) hargs
  have hpass : ∀ {characters : String}, characters.toList.head?.any (· ∈ punctuation) = true →
      ∀ rest, Ends primaryEnds rest → ¬characters.toList <+:
        (name ++ inAngles (Ty.texts table false args)).toList ++ rest := by
    intro characters hfirst rest _
    rw [String.toList_append, List.append_assoc]
    exact hname.not_next hfirst _
  rw [Ty.sketches_eq, Ty.texts_eq] at *
  refine .passed (.passed (.passed (.passed (.bind (.word hname)
    ((hangled.weaken fun rest hrest => ?_).map (Sketch.named name)) ?_) ?_) ?_) ?_) ?_
  · exact Ends.not_next hrest (by decide)
  · intro rest hrest
    cases args with
    | nil => exact hrest.mono (by decide)
    | cons ty args => simp [inAngles, punctuation]
  all_goals exact hpass (by decide)

lemma readPrimary_parens {text : String} {sketch : Sketch}
    (h : Reads type (Ends typeEnds) text sketch) :
    Reads (readPrimary n type) (Ends primaryEnds) (inParens text) sketch := by
  have hinner : Reads type (fun rest => ∃ more, rest = ")".toList ++ more) text sketch := by
    refine h.weaken fun rest hrest => ?_
    obtain ⟨more, rfl⟩ := hrest
    simp [typeEnds]
  rw [inParens, String.append_assoc]
  exact .found (hinner.upTo.weaken fun _ _ => trivial)

lemma readPrimary_tuple {elements : List Ty} (hn : elements.length ≤ n)
    (hfirst : ∀ ty ∈ elements, ∀ rest, ¬"]".toList <+: (ty.textAs table false).toList ++ rest)
    (helements : ∀ ty ∈ elements, ReadsType table type ty) :
    Reads (readPrimary n type) (Ends primaryEnds) ((Ty.tuple elements).textAs table true)
      (.tuple (Ty.sketches table elements)) := by
  have hclosed : Reads (Reader.closed ", " "]" type n) (fun _ => True)
      (", ".intercalate (elements.map (·.textAs table false)) ++ "]")
      (elements.map (·.sketch table)) :=
    .closed hn (by simp [typeEnds]) (by simp [typeEnds]) (by simp) hfirst helements
  rw [Ty.sketches_eq, Ty.textAs, Ty.texts_eq, String.append_assoc]
  exact .passed (.found ((hclosed.weaken fun _ _ => trivial).map Sketch.tuple)) (by simp)

lemma readPrimary_shape {members : List Member} (hn : members.length ≤ n)
    (hmembers : ∀ m ∈ members, ReadsMember table (readMember n type) m) :
    Reads (readPrimary n type) (Ends primaryEnds) ((Ty.shape members).textAs table true)
      (.shape (Member.sketches table members)) := by
  cases members with
  | nil =>
      have htext : (Ty.shape []).textAs table true = "\x7b\x7d" := by simp only [Ty.textAs]
      rw [htext]
      exact .passed (.passed (.found_all (.pure _)) (by simp)) (by simp)
  | cons m ms =>
      have hlist : Reads (Reader.upTo " \x7d" (Reader.separated "; " (readMember n type) n))
          (fun _ => True) ("; ".intercalate ((m :: ms).map (·.text table)) ++ " \x7d")
          ((m :: ms).map (·.sketch table)) :=
        .separated_upTo (List.cons_ne_nil m ms) hn (by simp [typeEnds]) (by simp [typeEnds])
          (by simp) hmembers
      have htext : (Ty.shape (m :: ms)).textAs table true =
          "\x7b " ++ ("; ".intercalate ((m :: ms).map (·.text table)) ++ " \x7d") := by
        simp only [Ty.textAs, Member.texts_eq, List.map_cons, String.append_assoc]
      rw [Member.sketches_eq, htext]
      exact .passed (.passed (.passed (.found ((hlist.weaken fun _ _ => trivial).map
        Sketch.shape)) (by simp)) (by simp)) (by simp)

lemma readSuffixes_reads : ∀ {k n : Nat} {sketch : Sketch}, k ≤ n →
    Reads (readSuffixes n sketch) (Ends operandEnds) (suffixes k) (arrays k sketch)
  | 0, 0, _, _ => .pure _
  | 0, n + 1, _, _ => .passed (.pure _) fun _ hrest => hrest.not_next (by decide)
  | k + 1, n + 1, _, h => .found (readSuffixes_reads (Nat.le_of_succ_le_succ h))

/-- An operand that is no array, and arrays of it. -/
lemma readOperand_reads {text : String} {sketch : Sketch} {k : Nat} (hk : k ≤ n)
    (h : Reads (readPrimary n type) (Ends primaryEnds) text sketch) :
    Reads (readOperand n type) (Ends operandEnds) (text ++ suffixes k) (arrays k sketch) := by
  refine h.bind (readSuffixes_reads hk) fun rest hrest => ?_
  cases k with
  | zero => exact hrest.mono (by decide)
  | succ k => simp [suffixes, primaryEnds]

/-- A type that is an operand. -/
lemma readType_operand {text : String} {sketch : Sketch}
    (hopens : ∀ rest, opensFunction (text.toList ++ rest) = false)
    (h : Reads (readOperand n type) (Ends operandEnds) text sketch) :
    Reads (readType n type) (Ends typeEnds) text sketch := by
  rw [← String.append_empty (s := text)] at hopens ⊢
  refine .no (h.bind (k := readJoined n type) (.passed (.passed (.pure sketch) fun rest hrest => ?_)
    fun rest hrest => ?_) fun rest hrest => ?_) fun rest _ => hopens rest
  · exact hrest.not_next (by decide)
  · exact hrest.not_next (by decide)
  · exact hrest.mono (by decide)

lemma readType_function {s : Signature} (hnames : ∀ p ∈ s.params, IsWord p.name)
    (hs : Reads (readSignature n type " => ") (Ends typeEnds) (s.textWith table " => ")
      (s.sketch table)) :
    Reads (readType n type) (Ends typeEnds) (s.textWith table " => ")
      (.function (s.sketch table)) :=
  .yes (hs.map Sketch.function) fun rest _ => opensFunction_signature hnames rest

/-- Several operands with one mark between them. -/
lemma readType_joined {members : List Ty} {mark : String} {make : List Sketch → Sketch}
    (hlength : 2 ≤ members.length) (hn : members.length ≤ n)
    (hmark : ∀ rest, Ends operandEnds (mark.toList ++ rest))
    (hends : mark.toList.head?.any (· ∉ typeEnds) = true)
    (hopens : ∀ ty ∈ members, ∀ rest,
      opensFunction ((ty.textAs table true).toList ++ rest) = false)
    (hmembers : ∀ ty ∈ members, ReadsOperand table (readOperand n type) ty)
    (hjoined : ∀ {first : Sketch} {text : String} {sketches : List Sketch},
      Reads (Reader.separated mark (readOperand n type) n) (Ends typeEnds) text sketches →
        Reads (readJoined n type first) (Ends typeEnds) (mark ++ text)
          (make (first :: sketches))) :
    Reads (readType n type) (Ends typeEnds) (mark.intercalate (Ty.texts table true members))
      (make (Ty.sketches table members)) := by
  obtain _ | ⟨first, _ | ⟨second, others⟩⟩ := members
  · simp at hlength
  · simp at hlength
  obtain ⟨hfirst, hothers⟩ := List.forall_mem_cons.mp hmembers
  have hlist : Reads (Reader.separated mark (readOperand n type) n) (Ends typeEnds)
      (mark.intercalate ((second :: others).map (·.textAs table true)))
      ((second :: others).map (·.sketch table)) :=
    .separated hmark (fun rest hrest => ⟨hrest.mono (by decide), hrest.not_next hends⟩)
      (List.cons_ne_nil second others) (Nat.le_of_succ_le hn) hothers
  rw [Ty.texts_eq, Ty.sketches_eq, List.map_cons, List.map_cons, List.map_cons,
    String.intercalate_cons_cons, String.append_assoc]
  refine .no (hfirst.bind (hjoined hlist) fun rest _ => ?_) fun rest _ => ?_
  · rw [String.toList_append, List.append_assoc]
    exact hmark _
  · rw [String.toList_append, String.toList_append, List.append_assoc, List.append_assoc]
    exact hopens first List.mem_cons_self _

end Sketch

/-! ## Texts are read back -/

open Sketch

lemma Primitive.isWord_keyword (kind : Primitive) : IsWord kind.keyword := by
  cases kind <;> decide

section

variable {table : SymbolTable}

/-- How the text of a type begins, as an operand or not. -/
lemma Ty.opening : ∀ (ty : Ty) (operand : Bool), ty.Legible table →
    Opening (ty.textAs table operand).toList
  | .primitive kind, _, _ => .word kind.isWord_keyword
  | .nominal symbol args, _, h => by
      simp only [Ty.Legible] at h
      rw [Ty.textAs, String.toList_append]
      refine (Opening.word h.1).append ?_
      cases Ty.texts table false args <;> simp [inAngles, openingMarks]
  | .function s, operand, _ => by
      cases operand with
      | true => exact .bracket (by simp [Ty.textAs, inParens])
      | false =>
          rw [Ty.textAs, if_neg Bool.false_ne_true, s.textWith_eq]
          cases s.typeParams <;> exact .bracket (by simp [inAngles])
  | .array element, _, h => by
      simp only [Ty.Legible] at h
      rw [Ty.textAs, String.toList_append]
      exact (Ty.opening element true h).append (by simp [openingMarks, primaryEnds])
  | .tuple _, _, _ => .bracket (by simp [Ty.textAs])
  | .shape [], _, _ => .bracket (by simp [Ty.textAs])
  | .shape (_ :: _), _, _ => .bracket (by simp [Ty.textAs])
  | .alias _, _, h => .word h
  | .param _, _, h => .word h
  | .literal _ _, _, h => .word h
  | .union [], _, h => by simp [Ty.Legible] at h
  | .union (first :: _), operand, h => by
      simp only [Ty.Legible, Ty.AllLegible] at h
      cases operand with
      | true => exact .bracket (by simp [Ty.textAs, inParens])
      | false => exact (Ty.opening first true h.2.1).joined (by decide) _
  | .intersection [], _, h => by simp [Ty.Legible] at h
  | .intersection (first :: _), operand, h => by
      simp only [Ty.Legible, Ty.AllLegible] at h
      cases operand with
      | true => exact .bracket (by simp [Ty.textAs, inParens])
      | false => exact (Ty.opening first true h.2.1).joined (by decide) _
  | .raw _, _, h => h.elim

lemma Ty.allLegible_iff {tys : List Ty} :
    Ty.AllLegible table tys ↔ ∀ ty ∈ tys, ty.Legible table := by
  induction tys with
  | nil => simp [Ty.AllLegible]
  | cons ty tys ih => rw [Ty.AllLegible, ih, List.forall_mem_cons]

lemma opensFunction_word {w : String} (h : IsWord w) (rest : List Char) :
    opensFunction (w.toList ++ rest) = false := by
  obtain ⟨c, hplain, hhead⟩ := h.head?_append rest
  refine decide_eq_false ?_
  rw [hhead, Option.some.injEq, Option.some.injEq]
  rintro (rfl | ⟨rfl, -⟩) <;> exact hplain (by decide)

lemma opensFunction_parens {text : String} (h : Opening text.toList) (rest : List Char) :
    opensFunction ((inParens text).toList ++ rest) = false := by
  have hrest : Ends openingMarks (')' :: rest) := Ends.cons.mpr (by decide)
  simp [inParens, opensFunction, (h.append hrest).not_params]

/-- An operand is not taken for a function type. -/
lemma Ty.opensFunction_operand : ∀ ty : Ty, ty.Legible table → ∀ rest,
    opensFunction ((ty.textAs table true).toList ++ rest) = false
  | .primitive kind, _, rest => opensFunction_word kind.isWord_keyword rest
  | .nominal symbol args, h, rest => by
      simp only [Ty.Legible] at h
      rw [Ty.textAs, String.toList_append, List.append_assoc]
      exact opensFunction_word h.1 _
  | .function s, h, rest =>
      opensFunction_parens (Ty.opening (.function s) false h) rest
  | .array element, h, rest => by
      rw [Ty.textAs, String.toList_append, List.append_assoc]
      exact Ty.opensFunction_operand element (by simpa only [Ty.Legible] using h) _
  | .tuple elements, _, rest => by simp [Ty.textAs, opensFunction]
  | .shape [], _, rest => by simp [Ty.textAs, opensFunction]
  | .shape (m :: ms), _, rest => by simp [Ty.textAs, opensFunction]
  | .alias _, h, rest => opensFunction_word h rest
  | .param _, h, rest => opensFunction_word h rest
  | .literal _ _, h, rest => opensFunction_word h rest
  | .union members, h, rest =>
      opensFunction_parens (Ty.opening (.union members) false h) rest
  | .intersection members, h, rest =>
      opensFunction_parens (Ty.opening (.intersection members) false h) rest
  | .raw _, h, _ => h.elim

/-- **The texts of a type are read back** with enough steps: by itself, and as an operand before
what makes arrays of it. -/
structure Ty.IsRead (table : SymbolTable) (ty : Ty) : Prop where
  whole : ∀ᶠ n in atTop, ReadsType table (Sketch.read n) ty
  operand : ∀ k, ∀ᶠ n in atTop, Reads (readOperand n (Sketch.read n)) (Ends operandEnds)
    (ty.textAs table true ++ suffixes k) (arrays k (ty.sketch table))

namespace Ty.IsRead

variable {ty : Ty}

lemma element (h : IsRead table ty) :
    ∀ᶠ n in atTop, ReadsOperand table (readOperand n (Sketch.read n)) ty := by
  have h0 := h.operand 0
  rwa [suffixes, String.append_empty] at h0

/-- A type that needs no brackets. -/
lemma of_primary (hlegible : ty.Legible table)
    (htext : ty.textAs table false = ty.textAs table true)
    (h : ∀ᶠ n in atTop, Reads (readPrimary n (Sketch.read n)) (Ends primaryEnds)
      (ty.textAs table true) (ty.sketch table)) : IsRead table ty where
  whole := by
    refine eventually_of_succ ?_
    filter_upwards [h] with n hn
    have hoperand := readOperand_reads (Nat.zero_le n) hn
    rw [suffixes, String.append_empty] at hoperand
    rw [ReadsType, htext]
    exact readType_operand (Ty.opensFunction_operand ty hlegible) hoperand
  operand k := by
    filter_upwards [h, eventually_ge_atTop k] with n hn hk
    exact readOperand_reads hk hn

/-- A type that needs brackets. -/
lemma of_parens (htext : ty.textAs table true = inParens (ty.textAs table false))
    (h : ∀ᶠ n in atTop, Reads (readType n (Sketch.read n)) (Ends typeEnds) (ty.textAs table false)
      (ty.sketch table)) : IsRead table ty where
  whole := eventually_of_succ h
  operand k := by
    -- what is in the brackets takes one step less
    have hread := eventually_of_succ (P := fun n => ReadsType table (Sketch.read n) ty) h
    filter_upwards [hread, eventually_ge_atTop k] with n hn hk
    rw [htext]
    exact readOperand_reads hk (readPrimary_parens hn)

lemma array (hlegible : ty.Legible table) (h : IsRead table ty) : IsRead table (.array ty) where
  whole := by
    refine eventually_of_succ ?_
    filter_upwards [h.operand 1] with n hn
    have harray : (Ty.array ty).Legible table := by simpa only [Ty.Legible] using hlegible
    have hopens := Ty.opensFunction_operand (.array ty) harray
    exact readType_operand hopens hn
  operand k := by
    -- the brackets of the array are among those that follow its element
    filter_upwards [h.operand (k + 1)] with n hn
    rw [Ty.textAs, String.append_assoc]
    exact hn

end Ty.IsRead

/-- Several types are read back, each with enough steps. -/
lemma eventually_reads {tys : List Ty} (h : ∀ ty ∈ tys, ty.IsRead table) : ∀ᶠ n in atTop,
    tys.length ≤ n ∧
    (∀ ty ∈ tys, ReadsType table (Sketch.read n) ty) ∧
    ∀ ty ∈ tys, ReadsOperand table (readOperand n (Sketch.read n)) ty := by
  filter_upwards [eventually_ge_atTop tys.length,
    eventually_forall_mem fun ty hty => (h ty hty).whole,
    eventually_forall_mem fun ty hty => (h ty hty).element] with n hn hwhole helement
  exact ⟨hn, hwhole, helement⟩

lemma Ty.isRead_leaf {ty : Ty} {text : String} (hlegible : ty.Legible table) (hword : IsWord text)
    (htext : ∀ operand, ty.textAs table operand = text)
    (hsketch : ty.sketch table = .named text []) : ty.IsRead table := by
  refine .of_primary hlegible ((htext false).trans (htext true).symm) (.of_forall fun n => ?_)
  have hnamed : Reads (readPrimary n (Sketch.read n)) (Ends primaryEnds)
      (text ++ inAngles (Ty.texts table false [])) (.named text (Ty.sketches table [])) :=
    readPrimary_named hword (Nat.zero_le n) nofun
  rw [Ty.texts, inAngles, String.append_empty, Ty.sketches] at hnamed
  rwa [htext, hsketch]

lemma Param.allLegible_iff {params : List Param} :
    Param.AllLegible table params ↔ ∀ p ∈ params, p.Legible table := by
  induction params with
  | nil => simp [Param.AllLegible]
  | cons p ps ih => rw [Param.AllLegible, ih, List.forall_mem_cons]

lemma Param.isWord_of_mem {params : List Param} (h : Param.AllLegible table params) :
    ∀ p ∈ params, IsWord p.name := by
  intro p hp
  have hp := Param.allLegible_iff.mp h p hp
  obtain ⟨name, type, optional, rest⟩ := p
  simp only [Param.Legible] at hp
  exact hp.1

mutual

/-- **The text of a legible type is read back.** -/
theorem Ty.isRead : ∀ {ty : Ty}, ty.Legible table → ty.IsRead table
  | .primitive kind, h => Ty.isRead_leaf h kind.isWord_keyword (fun _ => rfl) rfl
  | .nominal symbol args, h => by
      have hlegible := h
      simp only [Ty.Legible] at h
      refine .of_primary hlegible rfl ?_
      filter_upwards [eventually_reads (Ty.allRead h.2)] with n hn
      exact readPrimary_named h.1 hn.1 hn.2.1
  | .function s, h => by
      simp only [Ty.Legible] at h
      refine .of_parens rfl ?_
      have hnames : ∀ p ∈ s.params, IsWord p.name := by
        obtain ⟨typeParams, params, result⟩ := s
        simp only [Signature.Legible] at h
        exact Param.isWord_of_mem h.2.1
      filter_upwards [Signature.isRead h " => "] with n hn
      exact readType_function hnames hn
  | .array element, h => by
      simp only [Ty.Legible] at h
      exact (Ty.isRead h).array h
  | .tuple elements, h => by
      have hlegible := h
      simp only [Ty.Legible] at h
      refine .of_primary hlegible rfl ?_
      filter_upwards [eventually_reads (Ty.allRead h)] with n hn
      exact readPrimary_tuple hn.1 (fun ty hty rest => (Ty.opening ty false
        (Ty.allLegible_iff.mp h ty hty)).not_next (by decide) rest) hn.2.1
  | .shape members, h => by
      have hlegible := h
      simp only [Ty.Legible] at h
      refine .of_primary hlegible (by cases members <;> rfl) ?_
      filter_upwards [eventually_ge_atTop members.length,
        eventually_forall_mem (Member.allRead h)] with n hn hmembers
      exact readPrimary_shape hn hmembers
  | .alias symbol, h => Ty.isRead_leaf h h (fun _ => rfl) rfl
  | .param name, h => Ty.isRead_leaf h h (fun _ => rfl) rfl
  | .literal kind text, h => Ty.isRead_leaf h h (fun _ => rfl) rfl
  | .union members, h => by
      simp only [Ty.Legible] at h
      refine .of_parens rfl ?_
      filter_upwards [eventually_reads (Ty.allRead h.2)] with n hn
      refine readType_joined h.1 hn.1 (by simp [operandEnds]) (by decide)
        (fun ty hty => Ty.opensFunction_operand ty (Ty.allLegible_iff.mp h.2 ty hty)) hn.2.2
        fun hjoined => .found (hjoined.map fun sketches => Sketch.union (_ :: sketches))
  | .intersection members, h => by
      simp only [Ty.Legible] at h
      refine .of_parens rfl ?_
      filter_upwards [eventually_reads (Ty.allRead h.2)] with n hn
      refine readType_joined h.1 hn.1 (by simp [operandEnds]) (by decide)
        (fun ty hty => Ty.opensFunction_operand ty (Ty.allLegible_iff.mp h.2 ty hty)) hn.2.2
        fun hjoined => .passed (.found (hjoined.map fun sketches =>
          Sketch.intersection (_ :: sketches))) (by simp)
  | .raw _, h => h.elim

lemma Ty.allRead : ∀ {tys : List Ty}, Ty.AllLegible table tys → ∀ ty ∈ tys, ty.IsRead table
  | [], _ => nofun
  | ty :: tys, h => by
      simp only [Ty.AllLegible] at h
      exact List.forall_mem_cons.mpr ⟨Ty.isRead h.1, Ty.allRead h.2⟩

lemma Signature.isRead : ∀ {s : Signature}, s.Legible table → ∀ arrow : String, ∀ᶠ n in atTop,
    Reads (readSignature n (Sketch.read n) arrow) (Ends typeEnds) (s.textWith table arrow)
      (s.sketch table)
  | ⟨typeParams, params, result⟩, h, arrow => by
      simp only [Signature.Legible] at h
      filter_upwards [eventually_ge_atTop typeParams.length, eventually_ge_atTop params.length,
        eventually_forall_mem (Param.allRead h.2.1), (Ty.isRead h.2.2).whole]
        with n htypeParams hn hparams hresult
      exact readSignature_reads htypeParams hn h.1 (Param.isWord_of_mem h.2.1) hparams hresult

lemma Param.isRead : ∀ {p : Param}, p.Legible table →
    ∀ᶠ n in atTop, ReadsParam table (readParam (Sketch.read n)) p
  | ⟨name, type, optional, rest⟩, h => by
      simp only [Param.Legible] at h
      filter_upwards [(Ty.isRead h.2.1).whole] with n htype
      exact readParam_reads h.1 h.2.2 htype

lemma Param.allRead : ∀ {params : List Param}, Param.AllLegible table params → ∀ p ∈ params,
    ∀ᶠ n in atTop, ReadsParam table (readParam (Sketch.read n)) p
  | [], _ => nofun
  | p :: ps, h => by
      simp only [Param.AllLegible] at h
      exact List.forall_mem_cons.mpr ⟨Param.isRead h.1, Param.allRead h.2⟩

lemma MemberKind.isRead : ∀ {kind : MemberKind} {name : Option String}, kind.NamedAs name →
    kind.Legible table → ∀ᶠ n in atTop, Reads (readKind n (Sketch.read n)) (Ends typeEnds)
      (kind.text table (name.getD "")) (name, kind.sketch table)
  | .property type optional readonly, _, hname, h => by
      obtain ⟨word, rfl, hword⟩ := hname
      simp only [MemberKind.Legible] at h
      filter_upwards [(Ty.isRead h).whole] with n htype
      exact readKind_property hword htype
  | .method s optional, _, hname, h => by
      obtain ⟨word, rfl, hword⟩ := hname
      simp only [MemberKind.Legible] at h
      filter_upwards [Signature.isRead h ": "] with n hs
      exact readKind_method hs hword
  | .call s, _, hname, h => by
      obtain rfl := hname
      simp only [MemberKind.Legible] at h
      filter_upwards [Signature.isRead h ": "] with n hs
      exact readKind_call hs
  | .construct s, _, hname, h => by
      obtain rfl := hname
      simp only [MemberKind.Legible] at h
      filter_upwards [Signature.isRead h ": "] with n hs
      exact readKind_construct hs
  | .index ⟨typeParams, params, result⟩, _, hname, h => by
      obtain rfl := hname
      simp only [MemberKind.Legible, Signature.Legible] at h
      obtain ⟨rfl, -, hparams, hresult⟩ := h
      filter_upwards [eventually_ge_atTop params.length,
        eventually_forall_mem (Param.allRead hparams), (Ty.isRead hresult).whole]
        with n hn hreads hread
      exact readKind_index hn (Param.isWord_of_mem hparams) hreads hread
  | .nested _, _, _, h => h.elim

lemma Member.isRead : ∀ {m : Member}, m.Legible table →
    ∀ᶠ n in atTop, ReadsMember table (readMember n (Sketch.read n)) m
  | ⟨name, kind, isStatic, span⟩, h => by
      simp only [Member.Legible] at h
      filter_upwards [MemberKind.isRead h.1 h.2] with n hkind
      exact readMember_reads h.1 h.2 hkind

lemma Member.allRead : ∀ {members : List Member}, Member.AllLegible table members →
    ∀ m ∈ members, ∀ᶠ n in atTop, ReadsMember table (readMember n (Sketch.read n)) m
  | [], _ => nofun
  | m :: ms, h => by
      simp only [Member.AllLegible] at h
      exact List.forall_mem_cons.mpr ⟨Member.isRead h.1, Member.allRead h.2⟩

end

/-- **Source text is unambiguous**: legible types that have the same text look the same. -/
theorem Ty.sketch_eq_of_text_eq {a b : Ty} (ha : a.Legible table) (hb : b.Legible table)
    (h : a.text table = b.text table) : a.sketch table = b.sketch table := by
  obtain ⟨n, hreada, hreadb⟩ := ((Ty.isRead ha).whole.and (Ty.isRead hb).whole).exists
  have heq := (hreada [] .nil).symm.trans <| (congrArg (fun text => (Sketch.read n).run
    (text.toList ++ [])) h).trans (hreadb [] .nil)
  exact (Prod.mk.inj (Option.some.inj heq)).1

/-- A keyword and a type parameter of that name, below all kinds of brackets. -/
theorem Ty.sketch_eq_of_text_eq_param :
    let around (leaf : Ty) (span : Span) : Ty := .array <| .union
      [.function ⟨["T"], [⟨"xs", .array leaf, false, true⟩], .tuple []⟩,
        .shape [⟨some "static", .property leaf true true, true, span⟩,
          ⟨none, .construct ⟨[], [], .intersection [leaf, .tuple [leaf]]⟩, false, span⟩]]
    let a := around (.primitive .number) ⟨0, 1⟩
    let b := around (.param "number") ⟨2, 3⟩
    a.Legible .empty ∧ b.Legible .empty ∧
      a.text .empty = "((<T>(...xs: number[]) => [])|" ++
        "\x7b static readonly static?: number; new (): number&[number] \x7d)[]" ∧
      b.text .empty = a.text .empty ∧ a.sketch .empty = b.sketch .empty := by
  intro around a b
  have hlegible : ∀ leaf span, leaf.Legible .empty → (around leaf span).Legible .empty := by
    intro leaf span hleaf
    have hwords : IsWord "T" ∧ IsWord "xs" ∧ IsWord "static" := by decide
    simp [around, Ty.Legible, Ty.AllLegible, Signature.Legible, Param.AllLegible, Param.Legible,
      Member.AllLegible, Member.Legible, MemberKind.Legible, MemberKind.NamedAs, hleaf, hwords]
  have ha : a.Legible .empty := hlegible _ _ trivial
  have hb : b.Legible .empty := hlegible _ _ (show IsWord "number" by decide)
  have htext : a.text .empty = b.text .empty := by rfl
  exact ⟨ha, hb, by decide, htext.symm, Ty.sketch_eq_of_text_eq ha hb htext⟩

end

end Interop
