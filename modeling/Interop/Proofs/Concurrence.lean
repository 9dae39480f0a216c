import Interop.Proofs.CommentOptions
import Interop.Proofs.Comments
import Interop.Proofs.Matching
import Interop.Proofs.UnionKeys

/-!
# Renderings that differ in their comments

Two computations that do not go the same way may still come to the same.  Where all names are given
and diagnostics are collected, each has one result in all sessions that are alike, and the results
can be compared step by step, whatever the two did on the way.  Rendered types are compared without
what their notes say: the same text, with notes in the same places.

* `Phrasing.SameUpTo` — rendered types that differ in what their notes say and in nothing else.
* `Session.Concurs` — two computations whose results are related; `Concurs.bind`, `Concurs.mapM`, …
  follow how computations are put together.
* `Session.Named.gives_report`, `Session.Named.exists_name` — reports and names come to one result.
* `phraseFunction_concurs`, `phraseSymbol_concurs` — how types are rendered, from their parts.
-/

namespace Interop

open Filter Relation Work

/-! ## Notes -/

/-- A piece with its note replaced. -/
def Piece.mapNote (n : String → String) : Piece → Piece
  | .comment note => .comment (n note)
  | piece => piece

namespace Phrase

/-- A phrase with its notes replaced. -/
def mapNotes (n : String → String) (phrase : Phrase) : Phrase :=
  phrase.map (Piece.mapNote n)

variable {n : String → String}

@[simp] lemma mapNotes_nil : mapNotes n [] = [] := rfl

@[simp] lemma mapNotes_code (text : String) (rest : Phrase) :
    mapNotes n (.code text :: rest) = .code text :: mapNotes n rest := rfl

@[simp] lemma mapNotes_name (symbol : Nat) (text : String) (rest : Phrase) :
    mapNotes n (.name symbol text :: rest) = .name symbol text :: mapNotes n rest := rfl

@[simp] lemma mapNotes_comment (note : String) (rest : Phrase) :
    mapNotes n (.comment note :: rest) = .comment (n note) :: mapNotes n rest := rfl

@[simp] lemma mapNotes_append (first second : Phrase) :
    mapNotes n (first ++ second) = mapNotes n first ++ mapNotes n second :=
  List.map_append

lemma mapNotes_id : ∀ phrase : Phrase, mapNotes id phrase = phrase
  | [] => rfl
  | piece :: rest => by cases piece <;> simp [mapNotes_id rest]

/-- Notes do not count as what a phrase says. -/
@[simp] lemma code_mapNotes : ∀ phrase : Phrase, code (mapNotes n phrase) = code phrase
  | [] => rfl
  | piece :: rest => by cases piece <;> simp [code, code_mapNotes rest]

/-- A phrase is what it says besides its notes, if one of the two has no blank. -/
lemma code_eq_text : ∀ {phrase : Phrase}, ' ' ∉ phrase.text.toList ∨ ' ' ∉ (code phrase).toList →
    code phrase = phrase.text
  | [], _ => rfl
  | .code text :: rest, h | .name _ text :: rest, h => by
      have hrest : ' ' ∉ (Phrase.text rest).toList ∨ ' ' ∉ (code rest).toList := by
        refine h.imp (fun h hmem => h ?_) fun h hmem => h ?_
        · rw [text_cons, String.toList_append]
          exact List.mem_append_right _ hmem
        · simp only [code, String.toList_append]
          exact List.mem_append_right _ hmem
      simp only [code, text_cons, Piece.text, code_eq_text hrest]
  | .comment note :: rest, h => by
      simp [code, Piece.text, String.toList_append] at h

/-- Whether a phrase is a certain word without blanks can be told without its notes. -/
lemma text_eq_iff {word : String} (hword : ' ' ∉ word.toList) (phrase : Phrase) :
    phrase.text = word ↔ code phrase = word := by
  constructor
  · rintro rfl
    exact code_eq_text (Or.inl hword)
  · rintro rfl
    exact (code_eq_text (Or.inr hword)).symm

lemma isEmpty_mapNotes (phrase : Phrase) :
    (mapNotes n phrase).text.isEmpty = phrase.text.isEmpty := by
  rw [Bool.eq_iff_iff, String.isEmpty_iff, String.isEmpty_iff, text_eq_iff (by decide),
    text_eq_iff (by decide), code_mapNotes]

@[simp] lemma mapNotes_joined (separator : String) : ∀ phrases : List Phrase,
    mapNotes n (joined separator phrases) = joined separator (phrases.map (mapNotes n))
  | [] => rfl
  | [_] => rfl
  | phrase :: next :: rest => by
      have ih := mapNotes_joined separator (next :: rest)
      simp only [joined, mapNotes_append, mapNotes_code, ih, List.map_cons]

@[simp] lemma mapNotes_inAngles : ∀ phrases : List Phrase,
    mapNotes n (inAngles phrases) = inAngles (phrases.map (mapNotes n))
  | [] => rfl
  | _ :: _ => by simp [inAngles]

lemma mapNotes_bracketed (required optional : List Phrase) :
    mapNotes n (bracketed required optional) =
      bracketed (required.map (mapNotes n)) (optional.map (mapNotes n)) := by
  unfold bracketed
  simp only [List.isEmpty_map, ← mapNotes_joined, isEmpty_mapNotes]
  split_ifs <;> simp

lemma mapNotes_parameterList (params : List (Bool × Phrase)) : mapNotes n (parameterList params) =
    parameterList (params.map fun p => (p.1, mapNotes n p.2)) := by
  simp [parameterList, mapNotes_bracketed, List.takeWhile_map, List.dropWhile_map,
    Function.comp_def]

end Phrase

/-- **Rendered types that differ in nothing but their notes**, and in those in nothing that
counts. -/
structure Phrasing.SameUpTo (n : String → String) (p p' : Phrasing) : Prop where
  phrase : p.phrase.mapNotes n = p'.phrase.mapNotes n
  note : p.note.map n = p'.note.map n

namespace Phrasing.SameUpTo

variable {n : String → String} {p p' p'' : Phrasing}

lemma refl (p : Phrasing) : p.SameUpTo n p :=
  ⟨rfl, rfl⟩

lemma trans (h : p.SameUpTo n p') (h' : p'.SameUpTo n p'') : p.SameUpTo n p'' :=
  ⟨h.phrase.trans h'.phrase, h.note.trans h'.note⟩

lemma plain {phrase phrase' : Phrase} (h : phrase.mapNotes n = phrase'.mapNotes n) :
    (Phrasing.plain phrase).SameUpTo n (.plain phrase') :=
  ⟨h, rfl⟩

/-- Notes are written in the same places. -/
lemma annotated {phrase phrase' : Phrase} (h : phrase.mapNotes n = phrase'.mapNotes n)
    {o o' : RenderOptions} (ho : o.annotates = o'.annotates) {note note' : String}
    (hnote : n note = n note') :
    (Phrasing.annotated phrase note o).SameUpTo n (.annotated phrase' note' o') := by
  refine ⟨h, ?_⟩
  simp only [Phrasing.annotated, ho]
  split_ifs
  · exact congrArg some hnote
  · rfl

/-- If all of a note counts, nothing differs. -/
lemma eq (h : p.SameUpTo id p') : p = p' := by
  obtain ⟨phrase, note⟩ := p
  obtain ⟨phrase', note'⟩ := p'
  obtain ⟨hphrase, hnote⟩ := h
  rw [Phrase.mapNotes_id, Phrase.mapNotes_id] at hphrase
  rw [Option.map_id] at hnote
  exact congrArg₂ Phrasing.mk hphrase hnote

lemma code (h : p.SameUpTo n p') : p.phrase.code = p'.phrase.code := by
  rw [← Phrase.code_mapNotes, h.phrase, Phrase.code_mapNotes]

/-- Whether there is a note does not depend on what it says. -/
lemma isSome_note (h : p.SameUpTo n p') : p.note.isSome = p'.note.isSome := by
  rw [← Option.isSome_map (f := n), h.note, Option.isSome_map]

lemma withComment (h : p.SameUpTo n p') :
    p.withComment.mapNotes n = p'.withComment.mapNotes n := by
  obtain ⟨phrase, note⟩ := p
  obtain ⟨phrase', note'⟩ := p'
  obtain ⟨hphrase, hnote⟩ := h
  dsimp only at hphrase hnote
  cases note <;> cases note' <;>
    simp_all [Phrasing.withComment]

/-- What a type is shown as can be told without notes. -/
lemma isConcrete_of_phrase (h : p.phrase.mapNotes n = p'.phrase.mapNotes n) :
    p.erase.isConcrete = p'.erase.isConcrete := by
  have hcode : p.phrase.code = p'.phrase.code := by
    rw [← Phrase.code_mapNotes, h, Phrase.code_mapNotes]
  have hword : ∀ {word : String}, ' ' ∉ word.toList →
      (p.phrase.text ≠ word ↔ p'.phrase.text ≠ word) := fun hblank => by
    rw [ne_eq, ne_eq, Phrase.text_eq_iff hblank, Phrase.text_eq_iff hblank, hcode]
  rw [Bool.eq_iff_iff, Rendered.isConcrete_iff, Rendered.isConcrete_iff]
  exact and_congr (hword (by decide)) (and_congr (hword (by decide)) (hword (by decide)))

end Phrasing.SameUpTo

/-! ## Sessions -/

namespace Session

/-- The session inside scopes and expansions. -/
def inside (s : Session) (scopes : List (List String)) (expanding : List Nat) : Session :=
  { s with scopes, expanding }

variable {base s : Session}

lemma Like.pushScope (h : base.Like s) (names : List String) :
    (base.pushScope names).Like (s.pushScope names) :=
  ⟨⟨h.table, h.registry, h.libraries, h.assignments⟩, h.policy, h.expanding,
    congrArg (names :: ·) h.scopes, h.position, h.mode⟩

lemma Like.popScope {names : List String} (h : (base.pushScope names).Like s) :
    base.Like s.popScope :=
  ⟨⟨h.table, h.registry, h.libraries, h.assignments⟩, h.policy, h.expanding,
    congrArg List.tail h.scopes, h.position, h.mode⟩

lemma Like.pushAlias (h : base.Like s) (id : Nat) : (base.pushAlias id).Like (s.pushAlias id) :=
  ⟨⟨h.table, h.registry, h.libraries, h.assignments⟩, h.policy,
    congrArg (id :: ·) h.expanding, h.scopes, h.position, h.mode⟩

lemma Like.popAlias {id : Nat} (h : (base.pushAlias id).Like s) : base.Like s.popAlias :=
  ⟨⟨h.table, h.registry, h.libraries, h.assignments⟩, h.policy,
    congrArg List.tail h.expanding, h.scopes, h.position, h.mode⟩

lemma Like.inScope (h : base.Like s) (name : String) : s.inScope name = base.inScope name := by
  rw [Session.inScope, Session.inScope, h.scopes]

/-- Names are about the texts in other scopes and expansions as well. -/
lemma Named.inside (h : s.Named) (scopes : List (List String)) (expanding : List Nat) :
    (s.inside scopes expanding).Named :=
  ⟨h.owned, h.given⟩

end Session

/-! ## Computations -/

namespace Work

variable {α β : Type} {base : Session}

lemma Gives.inScope {w : Work α} {a : α} {names : List String}
    (h : w.Gives (base.pushScope names).Like a) : (Work.inScope names w).Gives base.Like a :=
  .within (fun _ hs => hs.pushScope names) (fun _ hs => hs.popScope) h

lemma Gives.expanding {w : Work α} {a : α} {id : Nat} (h : w.Gives (base.pushAlias id).Like a) :
    (Work.expanding id w).Gives base.Like a :=
  .within (fun _ hs => hs.pushAlias id) (fun _ hs => hs.popAlias) h

/-- Of a result that says more, what is left. -/
lemma Gives.erases {I : Session → Prop} {w : Work α} {v : Work β} {e : α → β} (h : w.Erases e v)
    {a : α} (hw : w.Gives I a) : v.Gives I (e a) := by
  intro s hs
  obtain ⟨hkept, -, -⟩ := hw s hs
  have hout := hw.exec hs
  rw [h s, hout]
  exact ⟨hkept, fun b hb => (Except.ok.inj hb).symm, fun failure hfails => by cases hfails⟩

/-- There is one result. -/
lemma Gives.eventually_unique {w : Nat → Work α} {a b : α}
    (ha : ∀ᶠ depth in atTop, (w depth).Gives base.Like a)
    (hb : ∀ᶠ depth in atTop, (w depth).Gives base.Like b) : a = b := by
  obtain ⟨depth, ha, hb⟩ := (ha.and hb).exists
  exact Except.ok.inj ((ha.exec (.refl base)).symm.trans (hb.exec (.refl base)))

end Work

/-- **Two computations with a bound whose results are related**, with every bound that is large
enough, each in all sessions that are alike. -/
def Session.Concurs {α β : Type} (base base' : Session) (w : Nat → Work α) (w' : Nat → Work β)
    (Q : α → β → Prop) : Prop :=
  ∃ a b, (∀ᶠ depth in atTop, (w depth).Gives base.Like a) ∧
    (∀ᶠ depth in atTop, (w' depth).Gives base'.Like b) ∧ Q a b

namespace Session.Concurs

variable {α β γ δ ε : Type} {base base' base'' : Session} {Q : α → β → Prop}

lemma pure {a : α} {b : β} (h : Q a b) :
    base.Concurs base' (fun _ => Pure.pure a) (fun _ => Pure.pure b) Q :=
  ⟨a, b, .of_forall fun _ => .pure a, .of_forall fun _ => .pure b, h⟩

/-- One step more makes no difference. -/
lemma of_succ {w : Nat → Work α} {w' : Nat → Work β}
    (h : base.Concurs base' (fun depth => w (depth + 1)) (fun depth => w' (depth + 1)) Q) :
    base.Concurs base' w w' Q := by
  obtain ⟨a, b, hw, hw', hab⟩ := h
  exact ⟨a, b, eventually_of_succ hw, eventually_of_succ hw', hab⟩

lemma imp {P : α → β → Prop} {w : Nat → Work α} {w' : Nat → Work β}
    (hw : base.Concurs base' w w' P) (h : ∀ a b, P a b → Q a b) : base.Concurs base' w w' Q := by
  obtain ⟨a, b, ha, hb, hab⟩ := hw
  exact ⟨a, b, ha, hb, h a b hab⟩

lemma trans {P : α → β → Prop} {Q : β → γ → Prop} {R : α → γ → Prop} {w : Nat → Work α}
    {w' : Nat → Work β} {w'' : Nat → Work γ} (hw : base.Concurs base' w w' P)
    (hw' : base'.Concurs base'' w' w'' Q) (h : ∀ a b c, P a b → Q b c → R a c) :
    base.Concurs base'' w w'' R := by
  obtain ⟨a, b, ha, hb, hab⟩ := hw
  obtain ⟨b', c, hb', hc, hbc⟩ := hw'
  obtain rfl := Gives.eventually_unique hb hb'
  exact ⟨a, c, ha, hc, h a b c hab hbc⟩

/-- Composition. -/
lemma bind {P : α → β → Prop} {Q : γ → δ → Prop} {w : Nat → Work α} {w' : Nat → Work β}
    {k : Nat → α → Work γ} {k' : Nat → β → Work δ} (hw : base.Concurs base' w w' P)
    (hk : ∀ a b, P a b → base.Concurs base' (k · a) (k' · b) Q) :
    base.Concurs base' (fun depth => w depth >>= k depth) (fun depth => w' depth >>= k' depth)
      Q := by
  obtain ⟨a, b, ha, hb, hab⟩ := hw
  obtain ⟨c, d, hc, hd, hcd⟩ := hk a b hab
  refine ⟨c, d, ?_, ?_, hcd⟩
  · filter_upwards [ha, hc] with depth ha hc using .bind ha hc
  · filter_upwards [hb, hd] with depth hb hd using .bind hb hd

/-- Results that are made into others. -/
lemma map {P : α → β → Prop} {Q : γ → δ → Prop} {w : Nat → Work α} {w' : Nat → Work β} {f : α → γ}
    {f' : β → δ} (hw : base.Concurs base' w w' P) (h : ∀ a b, P a b → Q (f a) (f' b)) :
    base.Concurs base' (fun depth => w depth >>= fun a => Pure.pure (f a))
      (fun depth => w' depth >>= fun b => Pure.pure (f' b)) Q :=
  bind hw fun a b hab => pure (h a b hab)

/-- Both begin with something that has one result. -/
lemma same_bind {w : Work ε} {e : ε} (hw : w.Gives base.Like e) (hw' : w.Gives base'.Like e)
    {k : Nat → ε → Work α} {k' : Nat → ε → Work β}
    (hk : base.Concurs base' (k · e) (k' · e) Q) :
    base.Concurs base' (fun depth => w >>= k depth) (fun depth => w >>= k' depth) Q :=
  bind (P := fun a b => a = e ∧ b = e)
    ⟨e, e, .of_forall fun _ => hw, .of_forall fun _ => hw', rfl, rfl⟩
    (by rintro a b ⟨rfl, rfl⟩; exact hk)

lemma table_bind {k : Nat → SymbolTable → Work α} {k' : Nat → SymbolTable → Work β}
    (hk : base.Concurs base' (k · base.table) (k' · base'.table) Q) :
    base.Concurs base' (fun depth => Work.table >>= k depth) (fun depth => Work.table >>= k' depth)
      Q := by
  obtain ⟨a, b, ha, hb, hab⟩ := hk
  refine ⟨a, b, ?_, ?_, hab⟩
  · filter_upwards [ha] with depth ha using Yields.table_bind fun s hs => hs.table ▸ ha
  · filter_upwards [hb] with depth hb using Yields.table_bind fun s hs => hs.table ▸ hb

/-- Each reads of the session what is the same in all that are alike. -/
lemma get_bind {k : Nat → Session → Work α} {k' : Nat → Session → Work β}
    (hk : ∀ depth s, base.Like s → k depth s = k depth base)
    (hk' : ∀ depth s, base'.Like s → k' depth s = k' depth base')
    (h : base.Concurs base' (k · base) (k' · base') Q) :
    base.Concurs base' (fun depth => get >>= k depth) (fun depth => get >>= k' depth) Q := by
  obtain ⟨a, b, ha, hb, hab⟩ := h
  refine ⟨a, b, ?_, ?_, hab⟩
  · filter_upwards [ha] with depth ha using Yields.get_bind fun s hs => hk depth s hs ▸ ha
  · filter_upwards [hb] with depth hb using Yields.get_bind fun s hs => hk' depth s hs ▸ hb

lemma inScope {w : Nat → Work α} {w' : Nat → Work β} {names : List String}
    (h : (base.pushScope names).Concurs (base'.pushScope names) w w' Q) :
    base.Concurs base' (fun depth => Work.inScope names (w depth))
      (fun depth => Work.inScope names (w' depth)) Q := by
  obtain ⟨a, b, ha, hb, hab⟩ := h
  exact ⟨a, b, ha.mono fun _ h => h.inScope, hb.mono fun _ h => h.inScope, hab⟩

lemma expanding {w : Nat → Work α} {w' : Nat → Work β} {id : Nat}
    (h : (base.pushAlias id).Concurs (base'.pushAlias id) w w' Q) :
    base.Concurs base' (fun depth => Work.expanding id (w depth))
      (fun depth => Work.expanding id (w' depth)) Q := by
  obtain ⟨a, b, ha, hb, hab⟩ := h
  exact ⟨a, b, ha.mono fun _ h => h.expanding, hb.mono fun _ h => h.expanding, hab⟩

lemma mapM {f : Nat → ε → Work α} {g : Nat → ε → Work β} {h : ε → ε} : ∀ {xs : List ε},
    (∀ x ∈ xs, base.Concurs base' (f · x) (fun depth => g depth (h x)) Q) →
      base.Concurs base' (fun depth => xs.mapM (f depth)) (fun depth => (xs.map h).mapM (g depth))
        (List.Forall₂ Q)
  | [], _ => pure .nil
  | x :: xs, hxs => by
      simp only [List.map_cons, List.mapM_cons]
      refine bind (hxs x List.mem_cons_self) fun a b hab => ?_
      refine bind (mapM fun y hy => hxs y (List.mem_cons_of_mem _ hy)) fun as bs habs => ?_
      exact pure (.cons hab habs)

end Session.Concurs

/-! ## Reports and names -/

namespace Session.Named

variable {base : Session} (h : base.Named) (hbatch : base.log.mode = .batch)

include hbatch in
/-- What does not fail where all names are given, and makes no lasting change, keeps sessions
alike. -/
lemma yields {α : Type} {w : Work α} {Q : α → Prop}
    (hw : w.Yields (fun s => base.SameNames s ∧ s.log.mode = .batch) (fun _ => False) Q)
    (hcomposed : w.Composed (fun _ => True) NoChange) : w.Yields base.Like (fun _ => False) Q :=
  (hw.whileExpanding hcomposed).like hbatch hcomposed

include h hbatch

lemma gives_report (d : Diagnostic) : (Work.report d).Gives base.Like () :=
  (yields hbatch (h.steady.report d) (.report d)).weaken fun _ _ => rfl

lemma exists_name {id : Nat} {symbol : Symbol} (hget : base.table.get? id = some symbol)
    (hkind : symbol.kind.isEmitted = true) : ∃ name, (Work.nameOf id).Gives base.Like name :=
  (show (Work.nameOf id).Repeats base.table [] fun _ => True from .nameOf id).gives
    (yields hbatch (h.steady.nameOf id symbol hget hkind) (.nameOf (fun _ _ => trivial) id))

/-- **A declaration has one name**, whatever is being expanded. -/
lemma exists_name_during {id : Nat} {symbol : Symbol} (hget : base.table.get? id = some symbol)
    (hkind : symbol.kind.isEmitted = true) (scopes : List (List String)) (first second : List Nat) :
    ∃ name, (Work.nameOf id).Gives (base.inside scopes first).Like name ∧
      (Work.nameOf id).Gives (base.inside scopes second).Like name := by
  obtain ⟨name, hname⟩ := (h.inside scopes first).exists_name hbatch hget hkind
  obtain ⟨name', hname'⟩ := (h.inside scopes second).exists_name hbatch hget hkind
  have hsame : name = name' := by
    have hmatches : (Work.nameOf id).Matches base.table first second (Work.nameOf id) (· = ·) :=
      .nameOf id
    have hrun := hname.exec (.refl (base.inside scopes first))
    obtain ⟨-, -, hfails | ⟨hout, -⟩⟩ :=
      hmatches (base.inside scopes first) rfl rfl (.ok name) _ (Prod.ext hrun rfl)
    · cases hfails
    · have hrun' := hname'.exec (.refl (base.inside scopes second))
      change Outcome _ _ _ ((Work.nameOf id).exec (base.inside scopes second)).1 at hout
      rw [hrun'] at hout
      cases hout with
      | ok hsame => exact hsame
  exact ⟨name, hname, hsame ▸ hname'⟩

end Session.Named

/-! ## Forms of types -/

section

variable {s : Session} {scopes : List (List String)} {first second : List Nat}
  {n : String → String} {o o' : RenderOptions}

lemma phraseSignature_concurs {sig sig' : Signature} {f : Param → Param}
    (htypes : sig'.typeParams = sig.typeParams) (hparams : sig'.params = sig.params.map f)
    (hparam : ∀ p ∈ sig.params, (f p).optional = p.optional ∧
      (s.inside scopes first).Concurs (s.inside scopes second) (phraseWithin · p.type o)
        (phraseWithin · (f p).type o') (Phrasing.SameUpTo n))
    (hresult : (s.inside scopes first).Concurs (s.inside scopes second)
      (phraseWithin · sig.result o) (phraseWithin · sig'.result o') (Phrasing.SameUpTo n)) :
    (s.inside scopes first).Concurs (s.inside scopes second)
      (fun depth => phraseSignature (phraseWithin depth) o sig)
      (fun depth => phraseSignature (phraseWithin depth) o' sig')
      fun p p' => p.mapNotes n = p'.mapNotes n := by
  refine .bind hresult fun result result' hresult => ?_
  rw [hparams]
  refine .bind (.mapM (Q := fun p p' => p'.1 = p.1 ∧ p'.2.mapNotes n = p.2.mapNotes n)
    fun p hp => ?_) fun params params' hall => .pure ?_
  · exact (hparam p hp).2.map fun _ _ hp' => ⟨(hparam p hp).1, hp'.withComment.symm⟩
  · have hsame : (params'.map fun p => (p.1, p.2.mapNotes n)) =
        params.map fun p => (p.1, p.2.mapNotes n) := by
      induction hall with
      | nil => rfl
      | cons hp _ ih => rw [List.map_cons, List.map_cons, hp.1, hp.2, ih]
    simp only [Phrase.mapNotes_append, Phrase.mapNotes_code, hresult.withComment,
      Phrase.mapNotes_parameterList, hsame, htypes]

variable (ho : o.annotates = o'.annotates)

include ho in
lemma phraseFunction_concurs {sig sig' : Signature} (hvariadic : sig'.isVariadic = sig.isVariadic)
    (htypes : sig'.typeParams = sig.typeParams)
    (hnote : n (sig.functionText s.table) = n (sig'.functionText s.table))
    (hsig : (s.inside (sig.typeParams :: scopes) first).Concurs
      (s.inside (sig.typeParams :: scopes) second)
      (fun depth => phraseSignature (phraseWithin depth) o.nested sig)
      (fun depth => phraseSignature (phraseWithin depth) o'.nested sig')
      fun p p' => p.mapNotes n = p'.mapNotes n) :
    (s.inside scopes first).Concurs (s.inside scopes second)
      (fun depth => phraseFunction (phraseWithin depth) sig o)
      (fun depth => phraseFunction (phraseWithin depth) sig' o') (Phrasing.SameUpTo n) := by
  unfold phraseFunction
  rw [hvariadic, htypes]
  split_ifs
  · exact .table_bind (.pure (.annotated rfl ho hnote))
  · have hscoped : ((s.inside scopes first).pushScope sig.typeParams).Concurs
        ((s.inside scopes second).pushScope sig.typeParams) _ _ _ := hsig
    exact hscoped.inScope.map fun _ _ hsame => .plain hsame

/-- Of object types that do more than be called, nothing is shown. -/
lemma phraseShape_of_none {phrase : Phraser} {members : List Member}
    (h : Member.onlyCall? members = none) (o : RenderOptions) :
    phraseShape phrase members o = Work.table >>= fun table =>
      pure (.annotated [.code untypedText] ((Ty.shape members).text table) o) := by
  unfold phraseShape
  split
  · cases h
  · rfl

lemma Member.onlyCall?_eq_some {members : List Member} {sig : Signature} :
    Member.onlyCall? members = some sig ↔
      ∃ name isStatic span, members = [⟨name, .call sig, isStatic, span⟩] := by
  constructor
  · intro h
    unfold Member.onlyCall? at h
    split at h
    · cases h
      exact ⟨_, _, _, rfl⟩
    · cases h
  · rintro ⟨name, isStatic, span, rfl⟩
    rfl

include ho in
/-- A declared type. -/
lemma phraseNominal_concurs {id : Nat} {symbol : Symbol} {name : Option String}
    (hname : (Work.nameOf id).Gives (s.inside scopes first).Like name)
    (hname' : (Work.nameOf id).Gives (s.inside scopes second).Like name) {args : List Ty}
    {f : Ty → Ty} (homits : omitsArguments (args.map f) = omitsArguments args)
    (hargs : ∀ arg ∈ args, (s.inside scopes first).Concurs (s.inside scopes second)
      (phraseWithin · arg o.argument) (phraseWithin · (f arg) o'.argument)
      (Phrasing.SameUpTo n)) :
    (s.inside scopes first).Concurs (s.inside scopes second)
      (fun depth => phraseNominal (phraseWithin depth) id symbol args o)
      (fun depth => phraseNominal (phraseWithin depth) id symbol (args.map f) o')
      (Phrasing.SameUpTo n) := by
  refine .same_bind hname hname' ?_
  cases name with
  | none => exact .pure (.annotated rfl ho rfl)
  | some name =>
      dsimp only
      rw [homits]
      split_ifs
      · exact .pure (.refl _)
      · refine .bind (.mapM (Q := fun p p' => p'.mapNotes n = p.mapNotes n) fun arg harg => ?_)
          fun phrases phrases' hall => .pure (.plain ?_)
        · exact (hargs arg harg).map fun _ _ hp => hp.withComment.symm
        · have hsame : phrases'.map (Phrase.mapNotes n) = phrases.map (Phrase.mapNotes n) := by
            induction hall with
            | nil => rfl
            | cons hp _ ih => rw [List.map_cons, List.map_cons, hp, ih]
          simp only [Phrase.mapNotes_name, Phrase.mapNotes_inAngles, hsame]

variable (h : s.Named) (hbatch : s.log.mode = .batch)
include h hbatch ho

lemma phraseAlias_concurs {id : Nat} (hid : first.contains id = second.contains id)
    {symbol : Symbol} {args args' : List Ty}
    (hbody : ∀ definition, symbol.aliased = some definition →
      (s.inside scopes (id :: first)).Concurs (s.inside scopes (id :: second))
        (phraseWithin · (if symbol.typeParams.isEmpty then definition
          else definition.substitute (aliasBindings symbol.typeParams args))
            { o with typeArguments := none })
        (phraseWithin · (if symbol.typeParams.isEmpty then definition
          else definition.substitute (aliasBindings symbol.typeParams args'))
            { o' with typeArguments := none }) (Phrasing.SameUpTo n)) :
    (s.inside scopes first).Concurs (s.inside scopes second)
      (fun depth => phraseAlias (phraseWithin depth) id symbol args o)
      (fun depth => phraseAlias (phraseWithin depth) id symbol args' o')
      (Phrasing.SameUpTo n) := by
  unfold phraseAlias
  cases haliased : symbol.aliased with
  | none => exact .pure (.annotated rfl ho rfl)
  | some definition =>
      refine .get_bind (fun _ s hs => by rw [hs.expanding])
        (fun _ s hs => by rw [hs.expanding]) ?_
      simp only [show (s.inside scopes first).expanding = first from rfl,
        show (s.inside scopes second).expanding = second from rfl, ← hid]
      by_cases hexpanding : first.contains id = true
      · simp only [if_pos hexpanding]
        exact .same_bind
          (Yields.get_bind fun _ _ => (h.inside scopes first).gives_report hbatch _)
          (Yields.get_bind fun _ _ => (h.inside scopes second).gives_report hbatch _)
          (.pure (.annotated rfl ho rfl))
      · simp only [if_neg hexpanding]
        have hinner : ((s.inside scopes first).pushAlias id).Concurs
          ((s.inside scopes second).pushAlias id) _ _ _ := hbody definition haliased
        exact hinner.expanding

/-- A reference to a symbol. -/
lemma phraseSymbol_concurs {id : Nat} (hid : first.contains id = second.contains id)
    {args : List Ty} {f : Ty → Ty}
    (homits : ∀ symbol, s.table.get? id = some symbol → symbol.kind ≠ .alias →
      omitsArguments (args.map f) = omitsArguments args)
    (hargs : ∀ arg ∈ args, (s.inside scopes first).Concurs (s.inside scopes second)
      (phraseWithin · arg o.argument) (phraseWithin · (f arg) o'.argument)
      (Phrasing.SameUpTo n))
    (hbody : ∀ symbol definition, s.table.get? id = some symbol → symbol.kind = .alias →
      symbol.aliased = some definition →
        (s.inside scopes (id :: first)).Concurs (s.inside scopes (id :: second))
          (phraseWithin · (if symbol.typeParams.isEmpty then definition
            else definition.substitute (aliasBindings symbol.typeParams args))
              { o with typeArguments := none })
          (phraseWithin · (if symbol.typeParams.isEmpty then definition
            else definition.substitute (aliasBindings symbol.typeParams (args.map f)))
              { o' with typeArguments := none }) (Phrasing.SameUpTo n)) :
    (s.inside scopes first).Concurs (s.inside scopes second)
      (fun depth => phraseSymbol (phraseWithin depth) id args o)
      (fun depth => phraseSymbol (phraseWithin depth) id (args.map f) o')
      (Phrasing.SameUpTo n) := by
  let untyped (o : RenderOptions) : Phrasing :=
    .annotated [.code untypedText] (s.table.qualifiedName id) o
  have hreport : ∀ {w : Work Unit}, (∀ stack, w.Gives (s.inside scopes stack).Like ()) →
      (s.inside scopes first).Concurs (s.inside scopes second)
        (fun _ => w >>= fun _ => pure (untyped o)) (fun _ => w >>= fun _ => pure (untyped o'))
        (Phrasing.SameUpTo n) := fun hgives =>
    .same_bind (hgives first) (hgives second) (.pure (.annotated rfl ho rfl))
  refine .table_bind ?_
  simp only [show ∀ stack, (s.inside scopes stack).table = s.table from fun _ => rfl]
  cases hget : s.table.get? id with
  | none => exact hreport fun stack =>
      Yields.get_bind fun _ _ => (h.inside scopes stack).gives_report hbatch _
  | some symbol =>
      dsimp only
      cases hkind : symbol.kind with
      | «alias» =>
          exact phraseAlias_concurs ho h hbatch hid fun definition haliased =>
            hbody symbol definition hget hkind haliased
      | klass | interface | enum =>
          obtain ⟨name, hname, hname'⟩ := h.exists_name_during hbatch hget (by rw [hkind]; rfl)
            scopes first second
          exact phraseNominal_concurs ho hname hname' (homits symbol hget (by rw [hkind]; simp))
            hargs
      | function | «variable» | typeParameter | nameSpace =>
          exact hreport fun stack =>
            Yields.get_bind fun _ _ => (h.inside scopes stack).gives_report hbatch _

end

end Interop
