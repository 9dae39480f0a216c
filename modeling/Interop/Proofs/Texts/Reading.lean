import Interop.Type.Text
import Mathlib.Data.List.Infix

/-!
# Reading texts back

Readers take the beginning of a text off what stands before them.  They look ahead a little, but do
not go back, so what a reader reads is fixed by what may follow.

* `Reader` — readers, of given characters, words and lists.
* `Ends` — what may follow a text.
* **`Reads`** — that a reader takes a text and nothing more, whatever follows that may follow.
* **`Reads.separated`**, **`Reads.closed`** — lists are read item by item.
-/

namespace Interop

/-! ## Readers -/

/-- The characters that stand around names. -/
def punctuation : List Char :=
  [' ', '(', ')', '[', ']', '\x7b', '\x7d', '<', '>', '|', '&', ';', ':', ',', '?', '.', '=']

/-- Texts that can stand among punctuation. -/
structure IsWord (text : String) : Prop where
  ne_empty : text ≠ ""
  plain : ∀ c ∈ text.toList, c ∉ punctuation

instance (text : String) : Decidable (IsWord text) :=
  decidable_of_iff (text ≠ "" ∧ text.toList.all (· ∉ punctuation) = true)
    ⟨fun h => ⟨h.1, by simpa using h.2⟩, fun h => ⟨h.1, by simpa using h.2⟩⟩

/-- A computation that takes the beginning of a text. -/
abbrev Reader (α : Type) := StateT (List Char) Option α

namespace Reader

variable {α : Type}

/-- Take given characters if they are next. -/
def skip (characters : String) : Reader Bool := fun text =>
  if characters.toList <+: text then some (true, text.drop characters.toList.length)
  else some (false, text)

/-- Go one of two ways by whether given characters are next. -/
def choose (characters : String) (yes no : Reader α) : Reader α :=
  skip characters >>= fun isNext => if isNext then yes else no

/-- Take given characters, which have to be next. -/
def expect (characters : String) : Reader Unit :=
  choose characters (return ()) failure

/-- Go one of two ways by what is next. -/
def branch (test : List Char → Bool) (yes no : Reader α) : Reader α := fun text =>
  if test text then yes text else no text

/-- Take what comes before the next punctuation. -/
def word : Reader String := fun text =>
  match text.takeWhile (· ∉ punctuation) with
  | [] => none
  | c :: more => some (String.ofList (c :: more), text.dropWhile (· ∉ punctuation))

/-- Take items, up to a number of them, with separators between them. -/
def separated (separator : String) (item : Reader α) : Nat → Reader (List α)
  | 0 => failure
  | n + 1 => do
    let first ← item
    choose separator (do return first :: (← separated separator item n)) (return [first])

/-- Take what closes a text with it. -/
def upTo (close : String) (reader : Reader α) : Reader α := do
  let a ← reader
  expect close
  return a

/-- Take items with separators between them, if there are any, and what closes them. -/
def closed (separator close : String) (item : Reader α) (n : Nat) : Reader (List α) :=
  choose close (return []) (upTo close (separated separator item n))

/-- Take items in angle brackets, if there are any. -/
def angled (item : Reader α) (n : Nat) : Reader (List α) :=
  choose "<" (upTo ">" (separated ", " item n)) (return [])

end Reader

/-! ## What may follow -/

/-- Nothing follows, or one of some characters. -/
def Ends (marks rest : List Char) : Prop :=
  ∀ c ∈ rest.head?, c ∈ marks

namespace Ends

variable {marks marks' rest : List Char}

@[simp] lemma nil : Ends marks [] :=
  nofun

@[simp] lemma cons {c : Char} : Ends marks (c :: rest) ↔ c ∈ marks := by
  simp [Ends]

lemma mono (h : Ends marks rest) (hsub : marks ⊆ marks') : Ends marks' rest :=
  fun c hc => hsub (h c hc)

lemma of_first {characters : String} (h : characters.toList.head?.any (· ∈ marks) = true)
    (rest : List Char) : Ends marks (characters.toList ++ rest) := by
  obtain ⟨c, hc, hmark⟩ := (Option.any_eq_true ..).mp h
  intro first hfirst
  rw [List.head?_append, hc] at hfirst
  exact Option.some.inj hfirst ▸ of_decide_eq_true hmark

/-- Other characters do not follow. -/
lemma not_next (h : Ends marks rest) {characters : String}
    (hfirst : characters.toList.head?.any (· ∉ marks) = true) : ¬characters.toList <+: rest := by
  rintro ⟨more, rfl⟩
  obtain ⟨c, hc, hmarks⟩ := (Option.any_eq_true ..).mp hfirst
  exact of_decide_eq_true hmarks (h c (by rw [List.head?_append, hc]; rfl))

end Ends

namespace IsWord

variable {w : String}

lemma exists_cons (h : IsWord w) : ∃ c more, w.toList = c :: more ∧ c ∉ punctuation := by
  cases hw : w.toList with
  | nil => exact absurd (String.toList_eq_nil_iff.mp hw) h.ne_empty
  | cons c more => exact ⟨c, more, rfl, h.plain c (hw ▸ List.mem_cons_self)⟩

lemma head?_append (h : IsWord w) (rest : List Char) :
    ∃ c ∉ punctuation, (w.toList ++ rest).head? = some c := by
  obtain ⟨c, more, hw, hc⟩ := h.exists_cons
  exact ⟨c, hc, by rw [hw, List.cons_append, List.head?_cons]⟩

/-- A word does not begin with punctuation. -/
lemma not_next (h : IsWord w) {characters : String}
    (hfirst : characters.toList.head?.any (· ∈ punctuation) = true) (rest : List Char) :
    ¬characters.toList <+: w.toList ++ rest := by
  obtain ⟨first, hplain, hword⟩ := h.head?_append rest
  obtain ⟨c, hc, hmark⟩ := (Option.any_eq_true ..).mp hfirst
  rintro ⟨more, heq⟩
  rw [← heq, List.head?_append, hc] at hword
  exact hplain (Option.some.inj hword ▸ of_decide_eq_true hmark)

end IsWord

/-- The characters before the next punctuation. -/
lemma takeWhile_plain {w rest : List Char} (hw : ∀ c ∈ w, c ∉ punctuation)
    (hrest : Ends punctuation rest) : (w ++ rest).takeWhile (· ∉ punctuation) = w := by
  rw [List.takeWhile_append_of_pos (by simpa using hw)]
  cases rest with
  | nil => simp
  | cons c rest => simp [Ends.cons.mp hrest]

lemma dropWhile_plain {w rest : List Char} (hw : ∀ c ∈ w, c ∉ punctuation)
    (hrest : Ends punctuation rest) : (w ++ rest).dropWhile (· ∉ punctuation) = rest := by
  rw [List.dropWhile_append_of_pos (by simpa using hw)]
  cases rest with
  | nil => simp
  | cons c rest => simp [Ends.cons.mp hrest]

/-- A keyword and a space do not stand where something else than a space follows a word. -/
lemma IsWord.not_next_keyword {keyword characters : String} (hkeyword : IsWord keyword)
    (hcharacters : characters = keyword ++ " ") {w marks rest : List Char}
    (hw : ∀ c ∈ w, c ∉ punctuation) (hrest : Ends marks rest) (hmarks : marks ⊆ punctuation)
    (hspace : ' ' ∉ marks) : ¬characters.toList <+: w ++ rest := by
  rintro ⟨more, heq⟩
  rw [hcharacters, String.toList_append, List.append_assoc] at heq
  have hnext := congrArg (List.dropWhile (· ∉ punctuation)) heq
  rw [dropWhile_plain hkeyword.plain (by simp [punctuation]),
    dropWhile_plain hw (hrest.mono hmarks)] at hnext
  exact hspace (Ends.cons.mp (hnext ▸ hrest))

/-- A list begins with its first item. -/
lemma exists_intercalate_cons (separator first : String) (texts : List String) :
    ∃ more, separator.intercalate (first :: texts) = first ++ more ∧
      (more = "" ∨ ∃ others, more = separator ++ others) := by
  cases texts with
  | nil => exact ⟨"", by rw [String.intercalate_singleton, String.append_empty], .inl rfl⟩
  | cons text texts =>
      refine ⟨separator ++ separator.intercalate (text :: texts), ?_, .inr ⟨_, rfl⟩⟩
      rw [String.intercalate_cons_cons, String.append_assoc]

/-! ## Reading -/

/-- **A reader takes a text**, and nothing more, before everything that may follow. -/
def Reads {α : Type} (reader : Reader α) (fits : List Char → Prop) (text : String) (a : α) : Prop :=
  ∀ rest, fits rest → reader.run (text.toList ++ rest) = some (a, rest)

namespace Reads

variable {α β γ : Type} {fits fits' : List Char → Prop} {text text' characters close : String}
  {a : α} {b : β} {reader : Reader α} {k : α → Reader β} {next : Reader β}

lemma weaken (h : Reads reader fits text a) (hfits : ∀ rest, fits' rest → fits rest) :
    Reads reader fits' text a :=
  fun rest hrest => h rest (hfits rest hrest)

lemma pure (a : α) : Reads (Pure.pure a) fits "" a :=
  fun _ _ => rfl

lemma bind (h : Reads reader fits text a) (hnext : Reads (k a) fits' text' b)
    (hfits : ∀ rest, fits' rest → fits (text'.toList ++ rest)) :
    Reads (reader >>= k) fits' (text ++ text') b := by
  intro rest hrest
  rw [StateT.run_bind, String.toList_append, List.append_assoc, h _ (hfits rest hrest)]
  exact hnext rest hrest

lemma map (h : Reads reader fits text a) (f : α → β) :
    Reads (reader >>= fun a => Pure.pure (f a)) fits text (f a) := by
  rw [← String.append_empty (s := text)]
  exact h.bind (pure _) fun _ hrest => hrest

/-- Characters that are next. -/
lemma skip_bind {k : Bool → Reader β} (h : Reads (k true) fits text b) :
    Reads (Reader.skip characters >>= k) fits (characters ++ text) b := by
  intro rest hrest
  have hnext : characters.toList <+: characters.toList ++ (text.toList ++ rest) :=
    List.prefix_append ..
  have hskip : (Reader.skip characters).run (characters.toList ++ (text.toList ++ rest)) =
      some (true, text.toList ++ rest) := by
    show (if _ then _ else _) = _
    rw [if_pos hnext, List.drop_left]
  rw [StateT.run_bind, String.toList_append, List.append_assoc, hskip]
  exact h rest hrest

/-- Characters that are not next. -/
lemma pass_bind {k : Bool → Reader β} (h : Reads (k false) fits text b)
    (hnext : ∀ rest, fits rest → ¬characters.toList <+: text.toList ++ rest) :
    Reads (Reader.skip characters >>= k) fits text b := by
  intro rest hrest
  have hskip : (Reader.skip characters).run (text.toList ++ rest) =
      some (false, text.toList ++ rest) := if_neg (hnext rest hrest)
  rw [StateT.run_bind, hskip]
  exact h rest hrest

/-- Characters that are written if a flag is set. -/
lemma flag {k : Bool → Reader β} (isSet : Bool) (h : Reads (k isSet) fits text b)
    (hnext : isSet = false → ∀ rest, fits rest → ¬characters.toList <+: text.toList ++ rest) :
    Reads (Reader.skip characters >>= k) fits ((if isSet then characters else "") ++ text) b := by
  cases isSet with
  | true => exact skip_bind h
  | false =>
      rw [if_neg Bool.false_ne_true, String.empty_append]
      exact pass_bind h (hnext rfl)

lemma found {other : Reader β} (h : Reads next fits text b) :
    Reads (Reader.choose characters next other) fits (characters ++ text) b :=
  skip_bind h

lemma passed {other : Reader β} (h : Reads next fits text b)
    (hnext : ∀ rest, fits rest → ¬characters.toList <+: text.toList ++ rest) :
    Reads (Reader.choose characters other next) fits text b :=
  pass_bind h hnext

/-- Characters that are all there is to read. -/
lemma found_all {other : Reader β} (h : Reads next fits "" b) :
    Reads (Reader.choose characters next other) fits characters b := by
  have hfound : Reads (Reader.choose characters next other) fits (characters ++ "") b := found h
  rwa [String.append_empty] at hfound

lemma expect (characters : String) :
    Reads (Reader.expect characters) (fun _ => True) characters () :=
  found_all (pure ())

lemma upTo (h : Reads reader (fun rest => ∃ more, rest = close.toList ++ more) text a) :
    Reads (Reader.upTo close reader) (fun _ => True) (text ++ close) a :=
  h.bind ((expect close).map fun _ => a) fun rest _ => ⟨rest, rfl⟩

/-- The way that is taken. -/
lemma yes {test : List Char → Bool} {other : Reader α} (h : Reads reader fits text a)
    (htest : ∀ rest, fits rest → test (text.toList ++ rest) = true) :
    Reads (Reader.branch test reader other) fits text a :=
  fun rest hrest => (if_pos (htest rest hrest)).trans (h rest hrest)

lemma no {test : List Char → Bool} {other : Reader α} (h : Reads reader fits text a)
    (htest : ∀ rest, fits rest → test (text.toList ++ rest) = false) :
    Reads (Reader.branch test other reader) fits text a :=
  fun rest hrest => (if_neg (by simp [htest rest hrest])).trans (h rest hrest)

/-- Words end at punctuation. -/
lemma word (h : IsWord text) : Reads Reader.word (Ends punctuation) text text := by
  intro rest hrest
  obtain ⟨c, more, htext, -⟩ := h.exists_cons
  show (match (text.toList ++ rest).takeWhile (· ∉ punctuation) with
    | [] => none
    | c :: more => some (String.ofList (c :: more),
        (text.toList ++ rest).dropWhile (· ∉ punctuation))) = _
  rw [takeWhile_plain h.plain hrest, dropWhile_plain h.plain hrest, htext]
  dsimp only
  rw [← htext, String.ofList_toList]

/-! ### Lists -/

variable {separator : String} {item : Reader α} {write : γ → String} {value : γ → α}

/-- **Items with separators between them** are read one after another. -/
lemma separated (hsep : ∀ rest, fits (separator.toList ++ rest))
    (hlast : ∀ rest, fits' rest → fits rest ∧ ¬separator.toList <+: rest) :
    ∀ {xs : List γ} {n : Nat}, xs ≠ [] → xs.length ≤ n →
      (∀ x ∈ xs, Reads item fits (write x) (value x)) →
        Reads (Reader.separated separator item n) fits' (separator.intercalate (xs.map write))
          (xs.map value)
  | [x], n + 1, _, _, h => by
      rw [List.map_singleton, List.map_singleton, String.intercalate_singleton,
        ← String.append_empty (s := write x)]
      refine (h x List.mem_cons_self).bind ?_ fun rest hrest => (hlast rest hrest).1
      exact passed (pure _) fun rest hrest => (hlast rest hrest).2
  | x :: y :: ys, n + 1, _, hn, h => by
      have hrest := separated hsep hlast (List.cons_ne_nil y ys) (Nat.le_of_succ_le_succ hn)
        fun z hz => h z (List.mem_cons_of_mem _ hz)
      rw [List.map_cons, List.map_cons, String.intercalate_cons_cons, String.append_assoc]
      refine (h x List.mem_cons_self).bind (found (hrest.map (value x :: ·))) fun rest _ => ?_
      rw [String.toList_append, List.append_assoc]
      exact hsep _

/-- Items before what closes them. -/
lemma separated_upTo {n : Nat} {xs : List γ} (hne : xs ≠ []) (hn : xs.length ≤ n)
    (hsep : ∀ rest, fits (separator.toList ++ rest)) (hclose : ∀ rest, fits (close.toList ++ rest))
    (hdiffer : ∀ rest, ¬separator.toList <+: close.toList ++ rest)
    (h : ∀ x ∈ xs, Reads item fits (write x) (value x)) :
    Reads (Reader.upTo close (Reader.separated separator item n)) (fun _ => True)
      (separator.intercalate (xs.map write) ++ close) (xs.map value) := by
  refine (separated hsep (fun rest hrest => ?_) hne hn h).upTo
  obtain ⟨more, rfl⟩ := hrest
  exact ⟨hclose more, hdiffer more⟩

/-- **Items up to what closes them**, of which there may be none. -/
lemma closed {n : Nat} {xs : List γ} (hn : xs.length ≤ n)
    (hsep : ∀ rest, fits (separator.toList ++ rest)) (hclose : ∀ rest, fits (close.toList ++ rest))
    (hdiffer : ∀ rest, ¬separator.toList <+: close.toList ++ rest)
    (hopen : ∀ x ∈ xs, ∀ rest, ¬close.toList <+: (write x).toList ++ rest)
    (h : ∀ x ∈ xs, Reads item fits (write x) (value x)) :
    Reads (Reader.closed separator close item n) (fun _ => True)
      (separator.intercalate (xs.map write) ++ close) (xs.map value) := by
  cases xs with
  | nil =>
      rw [List.map_nil, String.intercalate_nil, String.empty_append]
      exact found_all (pure [])
  | cons x xs =>
      obtain ⟨more, hmore, -⟩ := exists_intercalate_cons separator (write x) (xs.map write)
      refine passed (separated_upTo (List.cons_ne_nil x xs) hn hsep hclose hdiffer h)
        fun rest _ => ?_
      rw [List.map_cons, hmore, String.toList_append, String.toList_append, List.append_assoc,
        List.append_assoc]
      exact hopen x List.mem_cons_self _

/-- Items in angle brackets, which are left out if there are none. -/
lemma angled {n : Nat} {xs : List γ} (hn : xs.length ≤ n)
    (hsep : ∀ rest, fits (", ".toList ++ rest)) (hclose : ∀ rest, fits (">".toList ++ rest))
    (h : ∀ x ∈ xs, Reads item fits (write x) (value x)) :
    Reads (Reader.angled item n) (fun rest => ¬"<".toList <+: rest) (inAngles (xs.map write))
      (xs.map value) := by
  cases xs with
  | nil => exact passed (pure []) fun rest hrest => hrest
  | cons x xs =>
      have hitems := separated_upTo (List.cons_ne_nil x xs) hn hsep hclose (by simp) h
      have htext : inAngles ((x :: xs).map write) =
          "<" ++ (", ".intercalate ((x :: xs).map write) ++ ">") := by
        simp only [List.map_cons, inAngles, String.append_assoc]
      rw [htext]
      exact found (hitems.weaken fun _ _ => trivial)

end Reads

end Interop
