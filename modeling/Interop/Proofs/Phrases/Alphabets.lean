import Interop.Proofs.Following
import Interop.Proofs.Rendering

/-!
# What texts are made of

The program puts texts together from words of its own and from texts that it keeps from the source.
The former are plain, the latter may hold anything.  This file follows the characters: what holds of
every character of the texts in a type holds of everything that is made of them.

* `Alphabet` — the characters of names, and those of all that is kept besides.
* `Ty.Over`, `SymbolTable.Over` — the texts in a type and in a table are of an alphabet.
* **`Ty.spelled_textAs`** — a type in source syntax is of the alphabet of its texts.
* `Ty.over_substitute`, `components_over` — replacing type parameters and looking through aliases
  bring in no other texts.
-/

namespace Interop

/-! ## Characters -/

/-- All characters of a text are of a kind. -/
def Spelled (p : Char → Prop) (text : String) : Prop :=
  ∀ c ∈ text.toList, p c

section

variable {p q : Char → Prop}

@[simp] lemma spelled_append {first second : String} :
    Spelled p (first ++ second) ↔ Spelled p first ∧ Spelled p second := by
  simp only [Spelled, String.toList_append, List.forall_mem_append]

@[simp] lemma spelled_empty : Spelled p "" := by
  simp [Spelled]

lemma Spelled.imp {text : String} (h : Spelled p text) (hpq : ∀ c, p c → q c) : Spelled q text :=
  fun c hc => hpq c (h c hc)

lemma spelled_intercalate {separator : String} (hseparator : Spelled p separator) :
    ∀ {texts : List String}, (∀ text ∈ texts, Spelled p text) →
      Spelled p (separator.intercalate texts)
  | [], _ => by simp [String.intercalate]
  | [text], h => by simpa using h text List.mem_cons_self
  | text :: next :: rest, h => by
      rw [String.intercalate_cons_cons, spelled_append, spelled_append]
      exact ⟨⟨h text List.mem_cons_self, hseparator⟩,
        spelled_intercalate hseparator fun other hother => h other (List.mem_cons_of_mem _ hother)⟩

end

/-- Characters that the words of the program are made of: those that can be printed, apart from the
slash. -/
def isPlain (c : Char) : Bool :=
  ' ' ≤ c && c ≤ '~' && c != '/'

lemma isPlain_iff {c : Char} :
    isPlain c = true ↔ 32 ≤ c.toNat ∧ c.toNat ≤ 126 ∧ c.toNat ≠ 47 := by
  have hslash : c = '/' ↔ c.toNat = 47 := ⟨fun h => h ▸ rfl, fun h => Char.toNat_inj.mp h⟩
  simp only [isPlain, Bool.and_eq_true, decide_eq_true_eq, bne_iff_ne, ne_eq, hslash, and_assoc]
  exact Iff.rfl

/-- The characters that texts are made of.  Type parameters stand among the words of the program, and
everything else that is kept from the source may hold more. -/
structure Alphabet where
  /-- The characters of names. -/
  code : Char → Prop
  /-- The characters of all that is kept. -/
  note : Char → Prop
  plain : ∀ c, isPlain c = true → code c
  widens : ∀ c, code c → note c

namespace Alphabet

variable {A : Alphabet} {text : String}

/-- The words of the program are of any alphabet. -/
lemma word (h : text.toList.all isPlain = true) : Spelled A.code text :=
  fun c hc => A.plain c (List.all_eq_true.mp h c hc)

lemma widen (h : Spelled A.code text) : Spelled A.note text :=
  h.imp A.widens

lemma wordNote (h : text.toList.all isPlain = true) : Spelled A.note text :=
  widen (word h)

/-- The alphabet of notes, for names as well. -/
def whole (A : Alphabet) : Alphabet :=
  ⟨A.note, A.note, fun c h => A.widens c (A.plain c h), fun _ h => h⟩

/-- Numbers are of any alphabet. -/
lemma number (n : Nat) : Spelled A.code (toString n) := by
  intro c hc
  have hdigit : c ∈ Nat.toDigits 10 n := by simpa [toString, Nat.repr] using hc
  have hrange := Char.isDigit_iff_toNat.mp
    (Nat.isDigit_of_mem_toDigits (by decide) (by decide) hdigit)
  simp only [Char.reduceToNat] at hrange
  exact A.plain c (isPlain_iff.mpr (by omega))

end Alphabet

/-! ## Texts in types -/

variable (A : Alphabet)

mutual

/-- All texts in a type are of an alphabet. -/
def Ty.Over : Ty → Prop
  | .primitive _ => True
  | .nominal _ args => Ty.AllOver args
  | .function signature => signature.Over
  | .array element => element.Over
  | .tuple elements => Ty.AllOver elements
  | .shape members => Member.AllOver members
  | .alias _ => True
  | .param name => Spelled A.code name
  | .literal _ text => Spelled A.note text
  | .union members => Ty.AllOver members
  | .intersection members => Ty.AllOver members
  | .raw text => Spelled A.note text

/-- All texts in types are of an alphabet. -/
def Ty.AllOver : List Ty → Prop
  | [] => True
  | ty :: tys => ty.Over ∧ Ty.AllOver tys

/-- All texts in a signature are of an alphabet. -/
def Signature.Over : Signature → Prop
  | ⟨typeParams, params, result⟩ =>
    (∀ name ∈ typeParams, Spelled A.code name) ∧ Param.AllOver params ∧ result.Over

/-- All texts in a parameter are of an alphabet. -/
def Param.Over : Param → Prop
  | ⟨name, type, _, _⟩ => Spelled A.note name ∧ type.Over

/-- All texts in parameters are of an alphabet. -/
def Param.AllOver : List Param → Prop
  | [] => True
  | p :: ps => p.Over ∧ Param.AllOver ps

/-- All texts in what a member is are of an alphabet. -/
def MemberKind.Over : MemberKind → Prop
  | .property type _ _ => type.Over
  | .method signature _ => signature.Over
  | .call signature => signature.Over
  | .construct signature => signature.Over
  | .index signature => signature.Over
  | .nested _ => True

/-- All texts in a member are of an alphabet. -/
def Member.Over : Member → Prop
  | ⟨name, kind, _, _⟩ => Spelled A.note (name.getD "") ∧ kind.Over

/-- All texts in members are of an alphabet. -/
def Member.AllOver : List Member → Prop
  | [] => True
  | m :: ms => m.Over ∧ Member.AllOver ms

end

lemma Ty.allOver_iff {tys : List Ty} : Ty.AllOver A tys ↔ ∀ ty ∈ tys, ty.Over A := by
  induction tys with
  | nil => simp [Ty.AllOver]
  | cons ty tys ih => rw [Ty.AllOver, List.forall_mem_cons, ih]

lemma Param.allOver_iff {ps : List Param} : Param.AllOver A ps ↔ ∀ p ∈ ps, p.Over A := by
  induction ps with
  | nil => simp [Param.AllOver]
  | cons p ps ih => rw [Param.AllOver, List.forall_mem_cons, ih]

lemma Member.allOver_iff {ms : List Member} : Member.AllOver A ms ↔ ∀ m ∈ ms, m.Over A := by
  induction ms with
  | nil => simp [Member.AllOver]
  | cons m ms ih => rw [Member.AllOver, List.forall_mem_cons, ih]

lemma Signature.over_iff {sig : Signature} : sig.Over A ↔
    (∀ name ∈ sig.typeParams, Spelled A.code name) ∧ (∀ p ∈ sig.params, p.Over A) ∧
      sig.result.Over A := by
  cases sig
  rw [Signature.Over, Param.allOver_iff]

lemma Param.over_iff {p : Param} : p.Over A ↔ Spelled A.note p.name ∧ p.type.Over A := by
  cases p
  rfl

lemma Member.over_iff {m : Member} :
    m.Over A ↔ Spelled A.note (m.name.getD "") ∧ m.kind.Over A := by
  cases m
  rfl

/-- All texts that a symbol keeps are of an alphabet. -/
structure Symbol.Over (s : Symbol) : Prop where
  name : Spelled A.note s.name
  segments : ∀ segment ∈ s.path.segments, Spelled A.note segment
  typeParams : ∀ name ∈ s.typeParams, Spelled A.code name
  aliased : ∀ body, s.aliased = some body → body.Over A
  members : ∀ m ∈ s.members, m.Over A
  bases : ∀ ty ∈ s.bases, ty.Over A

/-- All texts that a table keeps are of an alphabet. -/
def SymbolTable.Over (table : SymbolTable) : Prop :=
  ∀ id s, table.get? id = some s → s.Over A

variable {A}

/-! ## Types in source syntax -/

section

variable {table : SymbolTable} (htable : table.Over A)
include htable

lemma SymbolTable.Over.displayName (id : Nat) : Spelled A.note (table.displayName id) := by
  unfold SymbolTable.displayName
  cases hid : table.get? id with
  | some s => exact (htable id s hid).name
  | none =>
      simp only [spelled_append]
      exact ⟨⟨A.wordNote (by decide), A.widen (A.number id)⟩, A.wordNote (by decide)⟩

lemma SymbolTable.Over.qualifiedName (id : Nat) : Spelled A.note (table.qualifiedName id) := by
  unfold SymbolTable.qualifiedName
  cases hid : table.get? id with
  | some s =>
      refine spelled_intercalate (A.wordNote (by decide)) fun segment hsegment => ?_
      refine (htable id s hid).segments segment ?_
      unfold Symbol.scopedName at hsegment
      split_ifs at hsegment
      · exact hsegment
      · exact List.mem_of_mem_drop hsegment
  | none =>
      simp only [spelled_append]
      exact ⟨⟨A.wordNote (by decide), A.widen (A.number id)⟩, A.wordNote (by decide)⟩

end

lemma spelled_inParens {text : String} (h : Spelled A.note text) :
    Spelled A.note (inParens text) := by
  simp only [inParens, spelled_append]
  exact ⟨⟨A.wordNote (by decide), h⟩, A.wordNote (by decide)⟩

lemma spelled_inAngles {texts : List String} (h : ∀ text ∈ texts, Spelled A.code text) :
    Spelled A.code (inAngles texts) := by
  cases texts with
  | nil => exact spelled_empty
  | cons text rest =>
      simp only [inAngles, spelled_append]
      exact ⟨⟨A.word (by decide), spelled_intercalate (A.word (by decide)) h⟩, A.word (by decide)⟩

section

variable {table : SymbolTable}

mutual

/-- **A type in source syntax** is of the alphabet of its texts. -/
lemma Ty.spelled_textAs (htable : table.Over A) (operand : Bool) : ∀ ty : Ty, ty.Over A →
    Spelled A.note (ty.textAs table operand)
  | .primitive kind, _ => by
      simp only [Ty.textAs]
      cases kind <;> exact A.wordNote (by decide)
  | .nominal symbol args, h => by
      simp only [Ty.textAs, spelled_append]
      exact ⟨htable.displayName symbol,
        spelled_inAngles (A := A.whole) (Ty.spelled_texts htable false args h)⟩
  | .alias symbol, _ => htable.displayName symbol
  | .function sig, h => by
      have htext := Signature.spelled_textWith htable " => " (A.wordNote (by decide)) sig h
      simp only [Ty.textAs]
      split_ifs
      · exact spelled_inParens htext
      · exact htext
  | .array element, h => by
      simp only [Ty.textAs, spelled_append]
      exact ⟨Ty.spelled_textAs htable true element h, A.wordNote (by decide)⟩
  | .tuple elements, h => by
      simp only [Ty.textAs, spelled_append]
      exact ⟨⟨A.wordNote (by decide), spelled_intercalate (A.wordNote (by decide))
        (Ty.spelled_texts htable false elements h)⟩, A.wordNote (by decide)⟩
  | .shape [], _ => by
      simp only [Ty.textAs]
      exact A.wordNote (by decide)
  | .shape (m :: ms), h => by
      simp only [Ty.textAs, spelled_append]
      refine ⟨⟨A.wordNote (by decide), spelled_intercalate (A.wordNote (by decide)) ?_⟩,
        A.wordNote (by decide)⟩
      exact List.forall_mem_cons.mpr
        ⟨Member.spelled_text htable m h.1, Member.spelled_texts htable ms h.2⟩
  | .param _, h => A.widen h
  | .literal _ _, h => h
  | .union members, h => by
      have hbar : Spelled A.note "|" := A.wordNote (by decide)
      have htext := spelled_intercalate hbar (Ty.spelled_texts htable true members h)
      simp only [Ty.textAs]
      split_ifs
      · exact spelled_inParens htext
      · exact htext
  | .intersection members, h => by
      have hand : Spelled A.note "&" := A.wordNote (by decide)
      have htext := spelled_intercalate hand (Ty.spelled_texts htable true members h)
      simp only [Ty.textAs]
      split_ifs
      · exact spelled_inParens htext
      · exact htext
  | .raw _, h => h

lemma Ty.spelled_texts (htable : table.Over A) (operand : Bool) : ∀ tys : List Ty,
    Ty.AllOver A tys → ∀ text ∈ Ty.texts table operand tys, Spelled A.note text
  | [], _ => by simp [Ty.texts]
  | ty :: tys, h =>
      List.forall_mem_cons.mpr
        ⟨Ty.spelled_textAs htable operand ty h.1, Ty.spelled_texts htable operand tys h.2⟩

lemma Signature.spelled_textWith (htable : table.Over A) (arrow : String)
    (harrow : Spelled A.note arrow) : ∀ sig : Signature, sig.Over A → Spelled A.note (sig.textWith table arrow)
  | ⟨typeParams, params, result⟩, ⟨htypes, hparams, hresult⟩ => by
      have hcomma : Spelled A.note ", " := A.wordNote (by decide)
      have hlist := spelled_intercalate hcomma (Param.spelled_texts htable params hparams)
      simp only [Signature.textWith, spelled_append]
      exact ⟨⟨⟨A.widen (spelled_inAngles htypes), spelled_inParens hlist⟩, harrow⟩,
        Ty.spelled_textAs htable false result hresult⟩

lemma Param.spelled_text (htable : table.Over A) : ∀ p : Param, p.Over A →
    Spelled A.note (p.text table)
  | ⟨name, type, optional, rest⟩, ⟨hname, htype⟩ => by
      have hdots : Spelled A.note (if rest then "..." else "") := by
        cases rest <;> exact A.wordNote (by decide)
      have hmark : Spelled A.note (if optional && !rest then "?" else "") := by
        cases optional <;> cases rest <;> exact A.wordNote (by decide)
      simp only [Param.text, spelled_append]
      exact ⟨⟨⟨⟨hdots, hname⟩, hmark⟩, A.wordNote (by decide)⟩,
        Ty.spelled_textAs htable false type htype⟩

lemma Param.spelled_texts (htable : table.Over A) : ∀ ps : List Param, Param.AllOver A ps →
    ∀ text ∈ Param.texts table ps, Spelled A.note text
  | [], _ => by simp [Param.texts]
  | p :: ps, h =>
      List.forall_mem_cons.mpr ⟨Param.spelled_text htable p h.1, Param.spelled_texts htable ps h.2⟩

lemma MemberKind.spelled_text (htable : table.Over A) (name : String) (hname : Spelled A.note name) :
    ∀ kind : MemberKind, kind.Over A → Spelled A.note (kind.text table name)
  | .property type optional readonly, h => by
      have hmodifier : Spelled A.note (if readonly then "readonly " else "") := by
        cases readonly <;> exact A.wordNote (by decide)
      have hmark : Spelled A.note (if optional then "?" else "") := by
        cases optional <;> exact A.wordNote (by decide)
      simp only [MemberKind.text, spelled_append]
      exact ⟨⟨⟨⟨hmodifier, hname⟩, hmark⟩, A.wordNote (by decide)⟩,
        Ty.spelled_textAs htable false type h⟩
  | .method sig optional, h => by
      have hmark : Spelled A.note (if optional then "?" else "") := by
        cases optional <;> exact A.wordNote (by decide)
      simp only [MemberKind.text, spelled_append]
      exact ⟨⟨hname, hmark⟩, Signature.spelled_textWith htable ": " (A.wordNote (by decide)) sig h⟩
  | .call sig, h => Signature.spelled_textWith htable ": " (A.wordNote (by decide)) sig h
  | .construct sig, h => by
      simp only [MemberKind.text, spelled_append]
      exact ⟨A.wordNote (by decide),
        Signature.spelled_textWith htable ": " (A.wordNote (by decide)) sig h⟩
  | .index ⟨_, params, result⟩, ⟨_, hparams, hresult⟩ => by
      simp only [MemberKind.text, spelled_append]
      exact ⟨⟨⟨A.wordNote (by decide), spelled_intercalate (A.wordNote (by decide))
        (Param.spelled_texts htable params hparams)⟩, A.wordNote (by decide)⟩,
        Ty.spelled_textAs htable false result hresult⟩
  | .nested symbol, _ => htable.qualifiedName symbol

lemma Member.spelled_text (htable : table.Over A) : ∀ m : Member, m.Over A →
    Spelled A.note (m.text table)
  | ⟨name, kind, isStatic, _⟩, ⟨hname, hkind⟩ => by
      have hmodifier : Spelled A.note (if isStatic then "static " else "") := by
        cases isStatic <;> exact A.wordNote (by decide)
      simp only [Member.text, spelled_append]
      exact ⟨hmodifier, MemberKind.spelled_text htable _ hname kind hkind⟩

lemma Member.spelled_texts (htable : table.Over A) : ∀ ms : List Member, Member.AllOver A ms →
    ∀ text ∈ Member.texts table ms, Spelled A.note text
  | [], _ => by simp [Member.texts]
  | m :: ms, h =>
      List.forall_mem_cons.mpr
        ⟨Member.spelled_text htable m h.1, Member.spelled_texts htable ms h.2⟩

end

end

/-! ## Types with other types put in -/

/-- All texts in the types that are put in are of an alphabet. -/
def Bindings.Over (A : Alphabet) (b : Bindings) : Prop :=
  ∀ entry ∈ b, entry.2.Over A

lemma Bindings.Over.hiding {b : Bindings} (h : b.Over A) (names : List String) :
    (b.hiding names).Over A :=
  fun entry hentry => h entry (List.mem_of_mem_filter hentry)

lemma Bindings.Over.lookup {b : Bindings} (h : b.Over A) {name : String} {ty : Ty}
    (hlookup : b.lookup name = some ty) : ty.Over A := by
  obtain ⟨before, after, rfl, -⟩ := List.lookup_eq_some_iff.mp hlookup
  exact h (name, ty) (by simp)

mutual

/-- **Replacing type parameters** brings in no texts but those of the types that are put in. -/
lemma Ty.over_substitute {b : Bindings} : ∀ ty : Ty, b.Over A → ty.Over A → (ty.substitute b).Over A
  | .primitive _, _, _ => trivial
  | .nominal _ args, hb, h => Ty.allOver_substitute args hb h
  | .function sig, hb, h => Signature.over_substitute sig hb h
  | .array element, hb, h => Ty.over_substitute element hb h
  | .tuple elements, hb, h => Ty.allOver_substitute elements hb h
  | .shape members, hb, h => Member.allOver_substitute members hb h
  | .alias _, _, _ => trivial
  | .param name, hb, h => by
      simp only [Ty.substitute]
      cases hlookup : b.lookup name with
      | none => exact h
      | some ty => exact hb.lookup hlookup
  | .literal _ _, _, h => h
  | .union members, hb, h => Ty.allOver_substitute members hb h
  | .intersection members, hb, h => Ty.allOver_substitute members hb h
  | .raw _, _, h => h

lemma Ty.allOver_substitute {b : Bindings} : ∀ tys : List Ty, b.Over A → Ty.AllOver A tys →
    Ty.AllOver A (Ty.substituteAll b tys)
  | [], _, _ => trivial
  | ty :: tys, hb, h => ⟨Ty.over_substitute ty hb h.1, Ty.allOver_substitute tys hb h.2⟩

lemma Signature.over_substitute {b : Bindings} : ∀ sig : Signature, b.Over A → sig.Over A →
    (sig.substitute b).Over A
  | ⟨typeParams, params, result⟩, hb, ⟨htypes, hparams, hresult⟩ =>
      ⟨htypes, Param.allOver_substitute params (hb.hiding typeParams) hparams,
        Ty.over_substitute result (hb.hiding typeParams) hresult⟩

lemma Param.over_substitute {b : Bindings} : ∀ p : Param, b.Over A → p.Over A →
    (p.substitute b).Over A
  | ⟨_, type, _, _⟩, hb, h => ⟨h.1, Ty.over_substitute type hb h.2⟩

lemma Param.allOver_substitute {b : Bindings} : ∀ ps : List Param, b.Over A → Param.AllOver A ps →
    Param.AllOver A (Param.substituteAll b ps)
  | [], _, _ => trivial
  | p :: ps, hb, h => ⟨Param.over_substitute p hb h.1, Param.allOver_substitute ps hb h.2⟩

lemma MemberKind.over_substitute {b : Bindings} : ∀ kind : MemberKind, b.Over A → kind.Over A →
    (kind.substitute b).Over A
  | .property type _ _, hb, h => Ty.over_substitute type hb h
  | .method sig _, hb, h => Signature.over_substitute sig hb h
  | .call sig, hb, h => Signature.over_substitute sig hb h
  | .construct sig, hb, h => Signature.over_substitute sig hb h
  | .index sig, hb, h => Signature.over_substitute sig hb h
  | .nested _, _, _ => trivial

lemma Member.over_substitute {b : Bindings} : ∀ m : Member, b.Over A → m.Over A →
    (m.substitute b).Over A
  | ⟨_, kind, _, _⟩, hb, h => ⟨h.1, MemberKind.over_substitute kind hb h.2⟩

lemma Member.allOver_substitute {b : Bindings} : ∀ ms : List Member, b.Over A →
    Member.AllOver A ms → Member.AllOver A (Member.substituteAll b ms)
  | [], _, _ => trivial
  | m :: ms, hb, h => ⟨Member.over_substitute m hb h.1, Member.allOver_substitute ms hb h.2⟩

end

/-- The arguments of an alias bring in no texts but their own. -/
lemma over_aliasBindings {params : List String} {args : List Ty} (hargs : ∀ ty ∈ args, ty.Over A) :
    Bindings.Over A (aliasBindings params args) := by
  intro entry hentry
  rcases snd_of_mem_aliasBindings hentry with hmem | hany
  · exact hargs _ hmem
  · rw [hany]
    trivial

/-! ## Types that count as others -/

/-- **Components** have no texts but those of the type and of what its aliases stand for. -/
lemma components_over {table : SymbolTable} (htable : table.Over A) {expanding : List Nat}
    {steps : Nat} {ty : Ty} {parts : List Ty}
    (h : components table expanding steps ty = some parts) (hty : ty.Over A) :
    ∀ part ∈ parts, part.Over A := by
  have hmembers : ∀ members, Ty.AllOver A members → ∀ member ∈ members, member.Over A :=
    fun members => (Ty.allOver_iff A).mp
  refine components_keep (P := Ty.Over A) (fun ty id body hbody _ => ?_) hmembers hmembers h hty
  obtain ⟨-, -, symbol, hid, -, -, haliased⟩ := aliasBody?_eq_some.mp hbody
  exact (htable id symbol hid).aliased body haliased

lemma Ty.over_ofUnion {tys : List Ty} {ty : Ty} (h : ∀ member ∈ tys, member.Over A)
    (hunion : Ty.ofUnion tys = some ty) : ty.Over A := by
  rcases tys with _ | ⟨first, _ | ⟨second, rest⟩⟩
  · cases hunion
  · obtain rfl := Option.some.inj hunion
    exact h first List.mem_cons_self
  · obtain rfl := Option.some.inj hunion
    exact (Ty.allOver_iff A).mpr h

lemma Param.over_argumentType {p : Param} (h : p.Over A) : p.argumentType.Over A := by
  have htype := ((Param.over_iff A).mp h).2
  unfold Param.argumentType
  split
  · rename_i element _ harray
    rwa [harray] at htype
  · exact htype

end Interop
