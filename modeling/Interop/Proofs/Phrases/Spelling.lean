import Interop.Proofs.Closure
import Interop.Proofs.Identifiers
import Interop.Proofs.Phrases.Alphabets
import Interop.Proofs.Phrases.Types
import Interop.Proofs.Repetition

/-!
# What phrases are made of

A rendered type is made of words of the program, of names, and of notes.  Names of declarations are
identifiers, so among its words and names there is nothing of the source but type parameters, and
its notes have nothing but the texts in the types.

* `Phrase.Over` — the words and names of a phrase, and its notes, are of an alphabet.
* `Session.Over` — the table of a session is of an alphabet, and so are the names that it gave.
* **`phraseWithin_over`** — the phrase of a type is of the alphabet of its texts.
* **`planRun_over`** — the names that are given in a run are of any alphabet.
-/

namespace Interop

open Work

/-! ## Phrases -/

/-- What a piece says is of an alphabet. -/
def Piece.Over (A : Alphabet) : Piece → Prop
  | .code text => Spelled A.code text
  | .name _ text => Spelled A.code text
  | .comment note => Spelled A.note note

/-- What the pieces of a phrase say is of an alphabet. -/
def Phrase.Over (A : Alphabet) (phrase : Phrase) : Prop :=
  ∀ piece ∈ phrase, piece.Over A

namespace Phrase

variable {A : Alphabet}

@[simp] lemma over_nil : Over A [] := by
  simp [Over]

@[simp] lemma over_cons {piece : Piece} {rest : Phrase} :
    Over A (piece :: rest) ↔ piece.Over A ∧ rest.Over A :=
  List.forall_mem_cons

@[simp] lemma over_append {first second : Phrase} :
    Over A (first ++ second) ↔ first.Over A ∧ second.Over A :=
  List.forall_mem_append

/-- A word of the program. -/
lemma over_word {text : String} (h : text.toList.all isPlain = true) : Piece.Over A (.code text) :=
  A.word h

/-- A phrase of words of the program. -/
lemma over_words {text : String} (h : text.toList.all isPlain = true) : Over A [.code text] :=
  over_cons.mpr ⟨over_word h, over_nil⟩

lemma over_joined (separator : String) (hseparator : separator.toList.all isPlain = true) :
    ∀ {phrases : List Phrase}, (∀ phrase ∈ phrases, phrase.Over A) → (joined separator phrases).Over A
  | [], _ => over_nil
  | [phrase], h => h phrase List.mem_cons_self
  | phrase :: next :: rest, h => by
      have hrest := over_joined separator hseparator fun other hother =>
        h other (List.mem_cons_of_mem _ hother)
      simp only [joined, over_append, over_cons]
      exact ⟨h phrase List.mem_cons_self, over_word hseparator, hrest⟩

lemma over_inAngles {phrases : List Phrase} (h : ∀ phrase ∈ phrases, phrase.Over A) :
    (inAngles phrases).Over A := by
  cases phrases with
  | nil => exact over_nil
  | cons phrase rest =>
      have hlist := over_joined ", " (by decide) h
      simp only [inAngles, over_cons, over_append]
      exact ⟨⟨over_word (by decide), hlist⟩, over_word (by decide), over_nil⟩

lemma over_bracketed {required optional : List Phrase} (hrequired : ∀ p ∈ required, p.Over A)
    (hoptional : ∀ p ∈ optional, p.Over A) : (bracketed required optional).Over A := by
  have hhead := over_joined ", " (by decide) hrequired
  have htail := over_joined ", " (by decide) hoptional
  unfold bracketed
  dsimp only
  split_ifs
  · exact hhead
  · simp only [over_append, over_cons]
    exact ⟨⟨hhead, over_word (by decide), htail⟩, over_word (by decide), over_nil⟩
  · simp only [over_append, over_cons]
    exact ⟨⟨hhead, over_word (by decide), htail⟩, over_word (by decide), over_nil⟩

/-- The type of lists of elements. -/
lemma over_list {element : Phrase} (h : element.Over A) :
    Over A (.code "List<" :: element ++ [.code ">"]) := by
  simp only [over_cons, over_append]
  exact ⟨⟨over_word (by decide), h⟩, over_word (by decide), over_nil⟩

lemma over_parameterList {params : List (Bool × Phrase)} (h : ∀ p ∈ params, p.2.Over A) :
    (parameterList params).Over A := by
  refine over_bracketed (fun phrase hphrase => ?_) fun phrase hphrase => ?_
  · obtain ⟨p, hp, rfl⟩ := List.mem_map.mp hphrase
    exact h p ((List.takeWhile_prefix _).subset hp)
  · obtain ⟨p, hp, rfl⟩ := List.mem_map.mp hphrase
    exact h p ((List.dropWhile_suffix _).subset hp)

/-- The text of a phrase is of the alphabet of notes, if comments can be written in it. -/
lemma spelled_text (hslash : A.note '/') : ∀ {phrase : Phrase}, phrase.Over A →
    Spelled A.note phrase.text
  | [], _ => spelled_empty
  | piece :: rest, h => by
      obtain ⟨hpiece, hrest⟩ := over_cons.mp h
      refine spelled_append.mpr ⟨?_, spelled_text hslash hrest⟩
      cases piece with
      | code text => exact A.widen hpiece
      | name symbol text => exact A.widen hpiece
      | comment note =>
          have hopen : Spelled A.note " /*" := by
            simpa [Spelled, hslash] using
              And.intro (A.widens ' ' (A.plain ' ' rfl)) (A.widens '*' (A.plain '*' rfl))
          have hclose : Spelled A.note "*/" := by
            simpa [Spelled, hslash] using A.widens '*' (A.plain '*' rfl)
          exact spelled_append.mpr ⟨spelled_append.mpr ⟨hopen, hpiece⟩, hclose⟩

end Phrase

/-- What a rendered type says, and its note, are of an alphabet. -/
structure Phrasing.Over (A : Alphabet) (p : Phrasing) : Prop where
  phrase : p.phrase.Over A
  note : ∀ note, p.note = some note → Spelled A.note note

namespace Phrasing

variable {A : Alphabet}

lemma over_plain {phrase : Phrase} (h : phrase.Over A) : (plain phrase).Over A :=
  ⟨h, fun _ hnote => by cases hnote⟩

lemma over_annotated {phrase : Phrase} (h : phrase.Over A) {note : String}
    (hnote : Spelled A.note note) (o : RenderOptions) : (annotated phrase note o).Over A := by
  refine ⟨h, fun other hother => ?_⟩
  simp only [annotated] at hother
  split_ifs at hother
  exact Option.some.inj hother ▸ hnote

/-- What stands for a type that cannot be written. -/
lemma over_untyped {note : String} (hnote : Spelled A.note note) (o : RenderOptions) :
    (annotated [.code untypedText] note o).Over A :=
  over_annotated (Phrase.over_words (by decide)) hnote o

lemma over_primitive (kind : Primitive) (o : RenderOptions) :
    (ofRendered (renderPrimitive kind o)).Over A := by
  cases kind with
  | symbol | bigint => exact over_untyped (A.wordNote (by decide)) o
  | void | undefined | never =>
      simp only [renderPrimitive]
      cases o.insideTypeArgument <;> exact over_plain (Phrase.over_words (by decide))
  | _ =>
      simp only [renderPrimitive]
      exact over_plain (Phrase.over_words (by decide))

lemma over_literal (kind : LiteralKind) {text : String} (htext : Spelled A.note text)
    (o : RenderOptions) : (ofRendered (renderLiteral kind text o)).Over A := by
  have hword : ∀ {base : String}, base.toList.all isPlain = true →
      (ofRendered (.annotated base text o)).Over A := fun h =>
    over_annotated (Phrase.over_words h) htext o
  cases kind <;> exact hword (by decide)

lemma Over.withComment {p : Phrasing} (h : p.Over A) : p.withComment.Over A := by
  unfold Phrasing.withComment
  cases hnote : p.note with
  | none => exact h.phrase
  | some note =>
      simp only [Phrase.over_append, Phrase.over_cons]
      exact ⟨h.phrase, h.note note hnote, Phrase.over_nil⟩

end Phrasing

/-! ## Sessions and options -/

/-- The table of a session is of an alphabet, and so are the names that it gave. -/
structure Session.Over (A : Alphabet) (s : Session) : Prop where
  table : s.table.Over A
  names : ∀ id symbol name, s.table.get? id = some symbol → symbol.kind.isEmitted = true →
    s.flatName symbol = some name → Spelled A.code name

/-- The types that options carry are of an alphabet. -/
structure RenderOptions.Over (A : Alphabet) (o : RenderOptions) : Prop where
  typeArguments : ∀ args, o.typeArguments = some args → ∀ ty ∈ args, ty.Over A
  bindings : ∀ b, o.bindings = some b → b.Over A

/-- Options that carry no types. -/
lemma RenderOptions.Plain.over {A : Alphabet} {o : RenderOptions} (h : o.Plain) : o.Over A := by
  constructor
  · simp [h.typeArguments]
  · simp [h.bindings]

/-- Options with other flags, and without arguments for aliases. -/
lemma RenderOptions.Over.of_bindings {A : Alphabet} {o o' : RenderOptions} (h : o.Over A)
    (hargs : o'.typeArguments = none) (hbindings : o'.bindings = o.bindings) : o'.Over A := by
  constructor
  · simp [hargs]
  · exact fun b hb => h.bindings b (hbindings ▸ hb)

/-! ## Rendering into phrases -/

/-- A way to render into phrases that are of the alphabet of what is rendered, in sessions with the
names of a given one. -/
def Phraser.Over (A : Alphabet) (base : Session) (phrase : Phraser) : Prop :=
  ∀ ty o, ty.Over A → o.Over A → (phrase ty o).Ensures base (Phrasing.Over A)

section

variable {A : Alphabet} {base : Session} {may : Failure → Prop} (hbase : base.Settled may)
  (hover : base.Over A)
include hbase hover

section

variable {render : Renderer} (hrender : render.Traced may base.table)
include hrender

/-! ### Distinct types -/

namespace DistinctTypes

omit hbase hover hrender in
lemma over_insert {d : DistinctTypes} {ty : Ty} (h : ∀ other ∈ d.types, other.Over A)
    (hty : ty.Over A) (key : String) : ∀ other ∈ (d.insert key ty).types, other.Over A := by
  unfold insert
  split_ifs
  · exact h
  · have htypes : types ⟨d.entries ++ [(key, ty)]⟩ = d.types ++ [ty] := by simp [types]
    rw [htypes]
    exact List.forall_mem_append.mpr ⟨h, by simpa using hty⟩

lemma add_over (steps : Nat) {d : DistinctTypes} (h : ∀ other ∈ d.types, other.Over A) {ty : Ty}
    (hty : ty.Over A) :
    (d.add render steps ty).Ensures base fun d => ∀ other ∈ d.types, other.Over A := by
  refine .get_bind fun s hs => ?_
  cases hparts : components s.table s.expanding steps ty with
  | none => exact .throw _
  | some parts =>
      have hall := components_over (hs.table ▸ hover.table) hparts hty
      refine .foldlM h fun d hd part hpart => ?_
      refine .bind (.of_traced hbase (hrender.key part)) fun key _ => .pure ?_
      exact over_insert hd (hall part hpart) key

lemma ofTypes_over (steps : Nat) {tys : List Ty} (h : ∀ ty ∈ tys, ty.Over A) :
    (ofTypes render steps tys).Ensures base fun d => ∀ other ∈ d.types, other.Over A :=
  .foldlM (by simp [types]) fun d hd ty hty => add_over hbase hover hrender steps hd (h ty hty)

lemma representative_over (steps : Nat) {tys : List Ty} (h : ∀ ty ∈ tys, ty.Over A) :
    (representative render steps tys).Ensures base (Ty.Over A) := by
  refine .bind (ofTypes_over hbase hover hrender steps h) fun d hd => .pure ?_
  unfold representative?
  cases hunion : Ty.ofUnion d.types with
  | none => trivial
  | some ty => exact Ty.over_ofUnion hd hunion

end DistinctTypes

end

/-! ### Forms of types -/

variable {phrase : Phraser} (h : phrase.Over A base)

omit hbase hover in
include h in
lemma Phraser.Over.withComment {ty : Ty} {o : RenderOptions} (hty : ty.Over A) (ho : o.Over A) :
    (do return (← phrase ty o).withComment : Work Phrase).Ensures base (Phrase.Over A) :=
  .bind (h ty o hty ho) fun _ hp => .pure hp.withComment

omit hbase hover in
include h in
lemma phraseSignature_over {sig : Signature} (hsig : sig.Over A) {o : RenderOptions}
    (ho : o.Over A) : (phraseSignature phrase o sig).Ensures base (Phrase.Over A) := by
  obtain ⟨htypes, hparams, hresult⟩ := (Signature.over_iff A).mp hsig
  refine .bind (h sig.result o hresult ho) fun result hresult => ?_
  refine .bind (.forall_mapM (Q := fun p : Bool × Phrase => p.2.Over A) fun p hp => ?_)
    fun params hparams => .pure ?_
  · have htype := ((Param.over_iff A).mp (hparams p hp)).2
    exact .bind (h p.type o htype ho) fun _ htype => .pure htype.withComment
  · have hgenerics : Spelled A.code (" " ++ functionText ++ inAngles sig.typeParams ++ "(") := by
      simp only [spelled_append]
      exact ⟨⟨⟨A.word (by decide), A.word (by decide)⟩, spelled_inAngles htypes⟩,
        A.word (by decide)⟩
    simp only [Phrase.over_append, Phrase.over_cons]
    exact ⟨⟨hresult.withComment, hgenerics, Phrase.over_parameterList hparams⟩,
      Phrase.over_word (by decide), Phrase.over_nil⟩

omit hbase in
include h in
lemma phraseFunction_over {sig : Signature} (hsig : sig.Over A) {o : RenderOptions}
    (ho : o.Over A) : (phraseFunction phrase sig o).Ensures base (Phrasing.Over A) := by
  unfold phraseFunction
  split_ifs
  · refine .table_bind (.pure (Phrasing.over_annotated (Phrase.over_words (by decide)) ?_ o))
    exact Signature.spelled_textWith hover.table " => " (A.wordNote (by decide)) sig hsig
  · refine .bind (.inScope _ (phraseSignature_over h hsig ?_)) fun p hp =>
      .pure (Phrasing.over_plain hp)
    exact ho.of_bindings rfl rfl

omit hover in
include h in
lemma phraseAlias_over {id : Nat} {symbol : Symbol} (hsymbol : symbol.Over A) {args : List Ty}
    (hargs : ∀ ty ∈ args, ty.Over A) {o : RenderOptions} (ho : o.Over A) :
    (phraseAlias phrase id symbol args o).Ensures base (Phrasing.Over A) := by
  unfold phraseAlias
  cases haliased : symbol.aliased with
  | none => exact .pure (Phrasing.over_untyped hsymbol.name o)
  | some body =>
      have hbody := hsymbol.aliased body haliased
      refine .get_bind fun s _ => ?_
      dsimp only
      split_ifs
      · refine .bind (.of_traced hbase (.reportUnsupported _)) fun _ _ => ?_
        exact .pure (Phrasing.over_untyped hsymbol.name o)
      · exact .expanding id (h _ _ hbody (ho.of_bindings rfl rfl))
      · exact .expanding id (h _ _ (Ty.over_substitute body (over_aliasBindings hargs) hbody)
          (ho.of_bindings rfl rfl))

include h in
lemma phraseNominal_over {id : Nat} {symbol : Symbol} (hid : base.table.get? id = some symbol)
    (hkind : symbol.kind.isEmitted = true) {args : List Ty} (hargs : ∀ ty ∈ args, ty.Over A)
    {o : RenderOptions} (ho : o.Over A) :
    (phraseNominal phrase id symbol args o).Ensures base (Phrasing.Over A) := by
  refine .bind (nameOf_ensures hbase hid hkind) fun name hname => ?_
  cases name with
  | none => exact .pure (Phrasing.over_untyped (hover.table id symbol hid).name o)
  | some name =>
      have hspelled : Piece.Over A (.name id name) := hover.names id symbol name hid hkind hname.symm
      dsimp only
      split_ifs
      · exact .pure (Phrasing.over_plain (Phrase.over_cons.mpr ⟨hspelled, Phrase.over_nil⟩))
      · refine .bind (.forall_mapM fun arg harg =>
          h.withComment (hargs arg harg) (ho.of_bindings rfl rfl)) fun args hargs => ?_
        exact .pure (Phrasing.over_plain
          (Phrase.over_cons.mpr ⟨hspelled, Phrase.over_inAngles hargs⟩))

include h in
lemma phraseSymbol_over (id : Nat) {args : List Ty} (hargs : ∀ ty ∈ args, ty.Over A)
    {o : RenderOptions} (ho : o.Over A) :
    (phraseSymbol phrase id args o).Ensures base (Phrasing.Over A) := by
  refine .table_bind ?_
  cases hid : base.table.get? id with
  | none =>
      refine .bind (.of_traced hbase (.reportUnresolved _)) fun _ _ => ?_
      exact .pure (Phrasing.over_untyped (hover.table.qualifiedName id) o)
  | some symbol =>
      have hsymbol := hover.table id symbol hid
      cases hkind : symbol.kind with
      | «alias» => simpa only [hkind] using phraseAlias_over hbase h hsymbol hargs ho
      | klass | interface | enum =>
          have hemitted : symbol.kind.isEmitted = true := by rw [hkind]; rfl
          simpa only [hkind] using phraseNominal_over hbase hover h hid hemitted hargs ho
      | function | «variable» | typeParameter | nameSpace =>
          simp only [hkind]
          refine .bind (.of_traced hbase (.reportUnsupported _)) fun _ _ => ?_
          exact .pure (Phrasing.over_untyped (hover.table.qualifiedName id) o)

omit hbase in
include h in
lemma phraseShape_over {members : List Member} (hmembers : Member.AllOver A members)
    {o : RenderOptions} (ho : o.Over A) :
    (phraseShape phrase members o).Ensures base (Phrasing.Over A) := by
  unfold phraseShape
  split
  · exact phraseFunction_over hover h hmembers.1.2 ho
  · exact .table_bind (.pure (Phrasing.over_untyped
      (Ty.spelled_textAs hover.table false (.shape members) hmembers) o))

include h in
lemma phraseUnion_over {render : Renderer} (hrender : render.Traced may base.table) (steps : Nat)
    {ty : Ty} (hty : ty.Over A) {members : List Ty} (hmembers : ∀ member ∈ members, member.Over A)
    {o : RenderOptions} (ho : o.Over A) :
    (phraseUnion render phrase steps ty members o).Ensures base (Phrasing.Over A) := by
  have hend : ∀ shown : Phrase, shown.Over A → Work.Ensures base
      (if members.length > 1 then do return Phrasing.annotated shown (ty.text (← Work.table)) o
        else return Phrasing.plain shown) (Phrasing.Over A) := by
    intro shown hshown
    split_ifs
    · exact .table_bind (.pure (Phrasing.over_annotated hshown
        (Ty.spelled_textAs hover.table false ty hty) o))
    · exact .pure (Phrasing.over_plain hshown)
  refine .bind (DistinctTypes.ofTypes_over hbase hover hrender steps hmembers) fun merged hmerged => ?_
  refine .bind (.filterM fun member _ => ?_) fun concrete hconcrete => .get_bind fun s _ => ?_
  · exact .of_traced hbase (.bind (.detached (hrender member _)) fun _ => .pure _)
  · dsimp only
    cases hshown : shownMember (o.policy.getD s.policy) concrete with
    | none =>
        exact .bind (.pure (Phrase.over_words (by decide))) hend
    | some member =>
        have hmember := hmerged member (hconcrete (mem_of_shownMember hshown))
        exact .bind (h member _ hmember (ho.of_bindings rfl rfl)) fun p hp =>
          .bind (.pure hp.phrase) hend

end

/-! ### All forms -/

/-- **The phrase of a type is of the alphabet of its texts**, in sessions whose table and names are. -/
theorem phraseWithin_over {A : Alphabet} {base : Session} {may : Failure → Prop}
    (hbase : base.Settled may) (hover : base.Over A) (depth : Nat) :
    (phraseWithin depth).Over A base := by
  induction depth with
  | zero => exact fun _ _ _ _ => .throw _
  | succ depth ih =>
      have hrender : (renderWithin depth).Traced may base.table := renderWithin_traced depth
      intro ty o hty ho
      cases ty with
      | primitive kind => exact .pure (Phrasing.over_primitive kind o)
      | nominal symbol args =>
          exact phraseSymbol_over hbase hover ih symbol ((Ty.allOver_iff A).mp hty) ho
      | «alias» symbol =>
          refine phraseSymbol_over hbase hover ih symbol ?_ ho
          cases hargs : o.typeArguments with
          | none => simp
          | some args => exact ho.typeArguments args hargs
      | function sig => exact phraseFunction_over hover ih hty ho
      | array element =>
          have helement : ∀ ty ∈ [element], ty.Over A := List.forall_mem_singleton.mpr hty
          refine .bind (DistinctTypes.representative_over hbase hover hrender depth helement)
            fun element helement => ?_
          exact .bind (ih element _ helement (ho.of_bindings rfl rfl)) fun p hp =>
            .pure (Phrasing.over_plain (Phrase.over_list hp.withComment))
      | tuple elements =>
          refine .bind (DistinctTypes.representative_over hbase hover hrender depth
            ((Ty.allOver_iff A).mp hty)) fun element helement => ?_
          refine .bind (ih element _ helement (ho.of_bindings rfl rfl)) fun p hp =>
            .table_bind (.pure (Phrasing.over_annotated (Phrase.over_list hp.withComment) ?_ o))
          exact Ty.spelled_textAs hover.table false (.tuple elements) hty
      | shape members => exact phraseShape_over hover ih hty ho
      | param name =>
          simp only [phraseWithin]
          cases hbound : o.bindings.bind (·.lookup name) with
          | some bound =>
              obtain ⟨b, hb, hlookup⟩ := Option.bind_eq_some_iff.mp hbound
              exact ih bound o ((ho.bindings b hb).lookup hlookup) ho
          | none =>
              refine .get_bind fun s _ => ?_
              split_ifs
              · exact .pure (Phrasing.over_plain (Phrase.over_cons.mpr ⟨hty, Phrase.over_nil⟩))
              · exact .pure (Phrasing.over_untyped (A.widen hty) o)
      | literal kind text => exact .pure (Phrasing.over_literal kind hty o)
      | union members =>
          exact phraseUnion_over hbase hover ih hrender depth hty ((Ty.allOver_iff A).mp hty) ho
      | intersection members =>
          exact phraseUnion_over hbase hover ih hrender depth hty ((Ty.allOver_iff A).mp hty) ho
      | raw text => exact .pure (Phrasing.over_untyped hty o)

lemma phrase_over {A : Alphabet} {base : Session} {may : Failure → Prop}
    (hbase : base.Settled may) (hover : base.Over A) : Phraser.Over A base phrase :=
  phraseWithin_over hbase hover depthLimit

/-! ## Names of a run -/

lemma isPlain_of_isPart {c : Char} (h : Identifier.isPart c = true) : isPlain c = true := by
  simp only [Identifier.isPart, Char.isAlphanum, Char.isAlpha, Char.isUpper, Char.isLower,
    Char.isDigit, Bool.or_eq_true, Bool.and_eq_true, decide_eq_true_eq, beq_iff_eq,
    UInt32.le_iff_toNat_le, ge_iff_le] at h
  rw [isPlain_iff]
  rcases h with (((h | h) | h) | rfl) | rfl
  · have hrange : 65 ≤ c.toNat ∧ c.toNat ≤ 90 := h
    omega
  · have hrange : 97 ≤ c.toNat ∧ c.toNat ≤ 122 := h
    omega
  · have hrange : 48 ≤ c.toNat ∧ c.toNat ≤ 57 := h
    omega
  · decide
  · decide

/-- Platform types have plain names. -/
lemma declareFiles_externalName (files : List ReadFile) {id : Nat} {s : Symbol} {target : String}
    (hs : (declareFiles files).table.get? id = some s) (htarget : s.externalName = some target) :
    target.toList.all isPlain = true := by
  have hplatform : ∀ entry ∈ SymbolTable.platform.toList, ∀ target,
      entry.2.externalName = some target → target.toList.all isPlain = true := by
    have hall : (SymbolTable.platform.toList.all fun entry =>
        (entry.2.externalName.getD "").toList.all isPlain) = true := by
      decide +kernel
    intro entry hentry target htarget
    simpa [htarget] using List.all_eq_true.mp hall entry hentry
  refine declareFiles_keeps (P := fun _ c => ∀ id s, c.table.get? id = some s → ∀ target,
    s.externalName = some target → target.toList.all isPlain = true)
    (fun _ _ keys c place name kind span _ _ hc =>
      Catalogue.declare_symbols (fun _ h => h) hc (fun _ h => by cases h)) ?_ id s hs target htarget
  exact fun id s hs => hplatform (id, s) (SymbolTable.mem_toList hs)

/-- **The names of a run are of any alphabet**: what is given to a declaration is an identifier, and
platform types have plain names. -/
lemma planRun_over {A : Alphabet} {files : List SourceFile} {programs : List Source.Program}
    {options : GenerationOptions} {session : Session}
    (hprepare : Session.prepare (planRun options.merge files programs).table options
      (planRun options.merge files programs).libraries = .ok session)
    (hready : session.Ready (planRun options.merge files programs).table
      (planRun options.merge files programs).libraries)
    (htable : (planRun options.merge files programs).table.Over A) : session.Over A := by
  refine ⟨hready.table_eq ▸ htable, fun id symbol name hid hkind hname => ?_⟩
  rw [hready.table_eq] at hid
  by_cases hnamed : symbol.isNamed = true
  · obtain ⟨other, hflat, hspells⟩ := planRun_spells hprepare hready hid hnamed
    rw [hname] at hflat
    obtain rfl := Option.some.inj hflat
    exact fun c hc =>
      A.plain c (isPlain_of_isPart (Identifier.isPart_of_usable hspells.usable hc))
  · unfold Session.flatName at hname
    cases hexternal : symbol.externalName with
    | some target =>
        rw [hexternal] at hname
        obtain rfl := Option.some.inj hname
        obtain ⟨s, hs, -, -, -, hsame⟩ := collect_declared hid
        exact A.word (declareFiles_externalName _ hs (hsame.symm.trans hexternal))
    | none =>
        rw [hexternal] at hname
        dsimp only at hname
        split_ifs at hname with hlegal
        exact absurd (Symbol.isNamed_iff.mpr ⟨hkind, hexternal, hlegal⟩) hnamed

end Interop
