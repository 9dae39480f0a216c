import Interop.Proofs.Work
import Interop.Rendering.Resolve

/-!
# Types in their parts

A rendered type is one string.  What it refers to, and what of it is comment, can no longer be told
from the string, since a name may be spelled like a word and a note may hold anything.  This file
renders types into phrases instead, in which every name of a declaration and every note is a piece of
its own, and proves that nothing else changes: the text of the phrase is what the program writes.

* `Piece`, `Phrase` — a text in its parts; `Phrase.text` puts them together.
* `phraseWithin` — render a type into a phrase.  Types are still told apart by the keys that
  `renderWithin` gives them.
* `Work.Erases` — a computation with richer results than another, and otherwise the same.
* **`phraseWithin_erases`** — rendering into a phrase, put together, is rendering.
-/

namespace Interop

/-! ## Phrases -/

/-- A part of a text. -/
inductive Piece where
  /-- Text of the target language. -/
  | code (text : String)
  /-- A reference to a declared symbol, by its name. -/
  | name (symbol : Nat) (text : String)
  | comment (note : String)
  deriving DecidableEq, Repr

/-- What stands in the text for a piece. -/
def Piece.text : Piece → String
  | .code text => text
  | .name _ text => text
  | .comment note => " /*" ++ note ++ "*/"

/-- A text in its parts. -/
abbrev Phrase := List Piece

namespace Phrase

/-- The text itself. -/
def text : Phrase → String
  | [] => ""
  | piece :: rest => piece.text ++ Phrase.text rest

/-- Phrases with a separator between them. -/
def joined (separator : String) : List Phrase → Phrase
  | [] => []
  | [phrase] => phrase
  | phrase :: next :: rest => phrase ++ .code separator :: joined separator (next :: rest)

/-- Type arguments in angle brackets; nothing for none. -/
def inAngles : List Phrase → Phrase
  | [] => []
  | phrases => .code "<" :: joined ", " phrases ++ [.code ">"]

/-- Required parameters, then optional ones in square brackets. -/
def bracketed (required optional : List Phrase) : Phrase :=
  let head := joined ", " required
  if optional.isEmpty then head
  else head ++ .code ((if head.text.isEmpty then "" else ", ") ++ "[") :: joined ", " optional ++
    [.code "]"]

/-- A parameter list from its parameters and whether each is optional. -/
def parameterList (params : List (Bool × Phrase)) : Phrase :=
  bracketed ((params.takeWhile fun p => !p.1).map (·.2)) ((params.dropWhile fun p => !p.1).map (·.2))

@[simp] lemma text_nil : text [] = "" := rfl

@[simp] lemma text_cons (piece : Piece) (rest : Phrase) :
    text (piece :: rest) = piece.text ++ rest.text := rfl

@[simp] lemma text_append (first second : Phrase) :
    text (first ++ second) = first.text ++ second.text := by
  induction first with
  | nil => simp
  | cons piece rest ih => simp [ih, String.append_assoc]

@[simp] lemma text_joined (separator : String) : ∀ phrases : List Phrase,
    (joined separator phrases).text = separator.intercalate (phrases.map text)
  | [] => rfl
  | [phrase] => by simp [joined]
  | phrase :: next :: rest => by
      have ih := text_joined separator (next :: rest)
      simp only [joined, text_append, text_cons, Piece.text, ih, List.map_cons,
        String.intercalate_cons_cons, String.append_assoc]

@[simp] lemma text_inAngles : ∀ phrases : List Phrase,
    (inAngles phrases).text = Interop.inAngles (phrases.map text)
  | [] => rfl
  | _ :: _ => by simp [inAngles, Interop.inAngles, Piece.text, String.append_assoc]

@[simp] lemma text_bracketed (required optional : List Phrase) :
    (bracketed required optional).text =
      Interop.bracketed (required.map text) (optional.map text) := by
  unfold bracketed Interop.bracketed
  simp only [List.isEmpty_map, text_joined]
  split_ifs <;> simp [Piece.text, String.append_assoc]

lemma text_parameterList (params : List (Bool × Phrase)) :
    (parameterList params).text = Interop.parameterList (params.map fun p => (p.1, p.2.text)) := by
  simp [parameterList, Interop.parameterList, List.takeWhile_map, List.dropWhile_map,
    Function.comp_def]

end Phrase

/-! ## Computations with richer results -/

namespace Work

variable {α β γ δ ε : Type}

/-- A computation that does what another one does, but whose result says more. -/
def Erases (e : α → β) (w : Work α) (v : Work β) : Prop :=
  ∀ s, v.exec s = ((w.exec s).1.map e, (w.exec s).2)

namespace Erases

variable {e : α → β} {e' : γ → δ}

lemma pure {a : α} {b : β} (h : e a = b) :
    (Pure.pure a : Work α).Erases e (Pure.pure b) :=
  fun _ => h ▸ rfl

lemma throw (failure : Failure) :
    (MonadExcept.throw failure : Work α).Erases e (MonadExcept.throw failure) :=
  fun _ => rfl

/-- Composition. -/
lemma bind {w : Work α} {v : Work β} {k : α → Work γ} {l : β → Work δ} (hw : w.Erases e v)
    (hk : ∀ a, (k a).Erases e' (l (e a))) : (w >>= k).Erases e' (v >>= l) := by
  intro s
  rw [exec_bind, exec_bind, hw s]
  rcases w.exec s with ⟨failure | a, t⟩
  · rfl
  · exact hk a t

/-- Both begin with the same. -/
lemma same_bind {w : Work ε} {k : ε → Work γ} {l : ε → Work δ}
    (hk : ∀ a, (k a).Erases e' (l a)) : (w >>= k).Erases e' (w >>= l) := by
  intro s
  rw [exec_bind, exec_bind]
  rcases w.exec s with ⟨failure | a, t⟩
  · rfl
  · exact hk a t

lemma within {enter leave : Session → Session} {w : Work α} {v : Work β} (h : w.Erases e v) :
    (Work.within enter leave w).Erases e (Work.within enter leave v) := by
  intro s
  rw [exec_within, exec_within, h (enter s)]

lemma mapM {f : ε → Work α} {g : ε → Work β} : ∀ {xs : List ε},
    (∀ x ∈ xs, (f x).Erases e (g x)) → (xs.mapM f).Erases (List.map e) (xs.mapM g)
  | [], _ => by
      simp only [List.mapM_nil]
      exact pure rfl
  | x :: xs, h => by
      simp only [List.mapM_cons]
      refine bind (h x List.mem_cons_self) fun a => ?_
      exact bind (mapM fun y hy => h y (List.mem_cons_of_mem _ hy)) fun as => pure rfl

lemma foldlM {f : α → ε → Work α} {g : β → ε → Work β} : ∀ {xs : List ε} {init : α},
    (∀ a, ∀ x ∈ xs, (f a x).Erases e (g (e a) x)) →
      (xs.foldlM f init).Erases e (xs.foldlM g (e init))
  | [], _, _ => pure rfl
  | x :: xs, init, h => by
      simp only [List.foldlM_cons]
      refine bind (h init x List.mem_cons_self) fun a => ?_
      exact foldlM fun b y hy => h b y (List.mem_cons_of_mem _ hy)

end Erases

end Work

/-! ## Rendering into phrases -/

/-- A type of the target in its parts, and what it does not say. -/
structure Phrasing where
  phrase : Phrase
  note : Option String := none
  deriving DecidableEq, Repr

namespace Phrasing

/-- A phrase that says everything. -/
def plain (phrase : Phrase) : Phrasing := ⟨phrase, none⟩

/-- A phrase with a note, where notes are written. -/
def annotated (phrase : Phrase) (note : String) (o : RenderOptions) : Phrasing :=
  ⟨phrase, if o.annotates then some note else none⟩

/-- The phrase, followed by the note as a comment. -/
def withComment (p : Phrasing) : Phrase :=
  match p.note with
  | some note => p.phrase ++ [.comment note]
  | none => p.phrase

/-- What the program keeps: the text and the note. -/
def erase (p : Phrasing) : Rendered :=
  ⟨p.phrase.text, p.note⟩

/-- A rendered type that refers to nothing. -/
def ofRendered (r : Rendered) : Phrasing :=
  ⟨[.code r.text], r.note⟩

@[simp] lemma erase_plain (phrase : Phrase) : (plain phrase).erase = .plain phrase.text := rfl

@[simp] lemma erase_annotated (phrase : Phrase) (note : String) (o : RenderOptions) :
    (annotated phrase note o).erase = .annotated phrase.text note o := rfl

@[simp] lemma erase_ofRendered (r : Rendered) : (ofRendered r).erase = r := by
  simp [ofRendered, erase, Piece.text]

@[simp] lemma text_withComment (p : Phrasing) :
    p.withComment.text = p.erase.withComment := by
  obtain ⟨phrase, _ | note⟩ := p
  · rfl
  · simp [withComment, Rendered.withComment, erase, Piece.text, String.append_assoc]

end Phrasing

/-- A way to render types into phrases. -/
abbrev Phraser := Ty → RenderOptions → Work Phrasing

/-- A function type: result, type parameters and parameters. -/
def phraseSignature (phrase : Phraser) (o : RenderOptions) (sig : Signature) : Work Phrase := do
  let result := (← phrase sig.result o).withComment
  let params ← sig.params.mapM fun p => do
    return (p.optional, (← phrase p.type o).withComment)
  return result ++ .code (" " ++ functionText ++ inAngles sig.typeParams ++ "(") ::
    Phrase.parameterList params ++ [.code ")"]

/-- The type of functions with a signature. -/
def phraseFunction (phrase : Phraser) (sig : Signature) (o : RenderOptions) : Work Phrasing := do
  if sig.isVariadic then
    return .annotated [.code functionText] (sig.functionText (← Work.table)) o
  else
    return .plain (← Work.inScope sig.typeParams (phraseSignature phrase o.nested sig))

/-- An alias is replaced by what it stands for. -/
def phraseAlias (phrase : Phraser) (id : Nat) (symbol : Symbol) (args : List Ty)
    (o : RenderOptions) : Work Phrasing := do
  match symbol.aliased with
  | none => return .annotated [.code untypedText] symbol.name o
  | some body =>
    if (← get).expanding.contains id then
      Work.reportUnsupported ("recursive type alias `" ++ symbol.name ++ "`")
      return .annotated [.code untypedText] symbol.name o
    else
      let body := if symbol.typeParams.isEmpty then body
        else body.substitute (aliasBindings symbol.typeParams args)
      Work.expanding id (phrase body { o with typeArguments := none })

/-- A declared type with its arguments. -/
def phraseNominal (phrase : Phraser) (id : Nat) (symbol : Symbol) (args : List Ty)
    (o : RenderOptions) : Work Phrasing := do
  match ← Work.nameOf id with
  | none => return .annotated [.code untypedText] symbol.name o
  | some name =>
    if omitsArguments args then return .plain [.name id name]
    else
      let args ← args.mapM fun arg => do return (← phrase arg o.argument).withComment
      return .plain (.name id name :: Phrase.inAngles args)

/-- A reference to a symbol. -/
def phraseSymbol (phrase : Phraser) (id : Nat) (args : List Ty) (o : RenderOptions) :
    Work Phrasing := do
  let table ← Work.table
  match table.get? id with
  | none =>
    let name := table.qualifiedName id
    Work.reportUnresolved name
    return .annotated [.code untypedText] name o
  | some symbol =>
    match symbol.kind with
    | .alias => phraseAlias phrase id symbol args o
    | .klass | .interface | .enum => phraseNominal phrase id symbol args o
    | .function | .variable | .typeParameter | .nameSpace =>
      let name := table.qualifiedName id
      Work.reportUnsupported ("`" ++ name ++ "` does not name a type")
      return .annotated [.code untypedText] name o

/-- An object type. -/
def phraseShape (phrase : Phraser) (members : List Member) (o : RenderOptions) : Work Phrasing := do
  match members with
  | [⟨_, .call sig, _, _⟩] => phraseFunction phrase sig o
  | _ => return .annotated [.code untypedText] ((Ty.shape members).text (← Work.table)) o

/-- A union or intersection, shown as one of its members. -/
def phraseUnion (render : Renderer) (phrase : Phraser) (steps : Nat) (ty : Ty) (members : List Ty)
    (o : RenderOptions) : Work Phrasing := do
  let merged ← DistinctTypes.ofTypes render steps members
  let display := { o with hideComment := true, typeArguments := none }
  let concrete ← merged.types.filterM fun member => do
    return (← Work.detached (render member display)).isConcrete
  let policy := o.policy.getD (← get).policy
  let shown ← match shownMember policy concrete with
    | some member => do pure (← phrase member display).phrase
    | none => pure [.code untypedText]
  if members.length > 1 then return .annotated shown (ty.text (← Work.table)) o
  else return .plain shown

/-- Render a type into a phrase, with a bound on the depth of rendering. -/
def phraseWithin : Nat → Phraser
  | 0, _, _ => throw .exhausted
  | depth + 1, ty, o =>
    let render := renderWithin depth
    let phrase := phraseWithin depth
    match ty with
    | .primitive kind => return .ofRendered (renderPrimitive kind o)
    | .nominal symbol args => phraseSymbol phrase symbol args o
    | .alias symbol => phraseSymbol phrase symbol (o.typeArguments.getD []) o
    | .function sig => phraseFunction phrase sig o
    | .array element => do
      let element ← DistinctTypes.representative render depth [element]
      let element := (← phrase element o.argument).withComment
      return .plain (.code "List<" :: element ++ [.code ">"])
    | .tuple elements => do
      let element ← DistinctTypes.representative render depth elements
      let element := (← phrase element { o.argument with hideComment := true }).withComment
      return .annotated (.code "List<" :: element ++ [.code ">"]) (ty.text (← Work.table)) o
    | .shape members => phraseShape phrase members o
    | .param name =>
      match o.bindings.bind (·.lookup name) with
      | some bound => phrase bound o
      | none => do
        if (← get).inScope name then return .plain [.code name]
        else return .annotated [.code untypedText] name o
    | .literal kind text => return .ofRendered (renderLiteral kind text o)
    | .union members | .intersection members => phraseUnion render phrase depth ty members o
    | .raw text => return .annotated [.code untypedText] text o

/-- Render a type into a phrase. -/
def phrase : Phraser :=
  phraseWithin depthLimit

/-! ## Putting phrases together -/

/-- A way to render into phrases that a renderer puts together. -/
def Phraser.Erases (phrase : Phraser) (render : Renderer) : Prop :=
  ∀ ty o, (phrase ty o).Erases Phrasing.erase (render ty o)

variable {phrase : Phraser} {render : Renderer}

open Work

lemma Phraser.Erases.withComment (h : phrase.Erases render) (ty : Ty) (o : RenderOptions) :
    (do return (← phrase ty o).withComment : Work Phrase).Erases Phrase.text
      (do return (← render ty o).withComment) :=
  .bind (h ty o) fun p => .pure p.text_withComment

lemma phraseSignature_erases (h : phrase.Erases render) (o : RenderOptions) (sig : Signature) :
    (phraseSignature phrase o sig).Erases Phrase.text (renderSignature render o sig) := by
  refine .bind (h sig.result o) fun result => ?_
  refine .bind (e := List.map fun p : Bool × Phrase => (p.1, p.2.text))
    (.mapM fun p _ => ?_) fun params => .pure ?_
  · exact .bind (h p.type o) fun type => .pure (by rw [Phrasing.text_withComment])
  · simp [Phrase.text_parameterList, Piece.text, String.append_assoc]

lemma phraseFunction_erases (h : phrase.Erases render) (sig : Signature) (o : RenderOptions) :
    (phraseFunction phrase sig o).Erases Phrasing.erase (renderFunction render sig o) := by
  unfold phraseFunction renderFunction
  split_ifs
  · exact .same_bind fun table => .pure rfl
  · exact .bind (.within (phraseSignature_erases h o.nested sig)) fun text => .pure rfl

lemma phraseAlias_erases (h : phrase.Erases render) (id : Nat) (symbol : Symbol) (args : List Ty)
    (o : RenderOptions) : (phraseAlias phrase id symbol args o).Erases Phrasing.erase
      (renderAlias render id symbol args o) := by
  unfold phraseAlias renderAlias
  cases symbol.aliased with
  | none => exact .pure rfl
  | some body =>
      refine .same_bind fun s => ?_
      dsimp only
      split_ifs
      · exact .same_bind fun _ => .pure rfl
      · exact .within (h _ _)
      · exact .within (h _ _)

lemma phraseNominal_erases (h : phrase.Erases render) (id : Nat) (symbol : Symbol) (args : List Ty)
    (o : RenderOptions) : (phraseNominal phrase id symbol args o).Erases Phrasing.erase
      (renderNominal render id symbol args o) := by
  refine .same_bind fun name => ?_
  cases name with
  | none => exact .pure rfl
  | some name =>
      dsimp only
      split_ifs
      · exact .pure (by simp [Piece.text])
      · exact .bind (.mapM fun arg _ => h.withComment arg o.argument) fun args =>
          .pure (by simp [Piece.text])

lemma phraseSymbol_erases (h : phrase.Erases render) (id : Nat) (args : List Ty)
    (o : RenderOptions) : (phraseSymbol phrase id args o).Erases Phrasing.erase
      (renderSymbol render id args o) := by
  refine .same_bind fun table => ?_
  cases table.get? id with
  | none => exact .same_bind fun _ => .pure rfl
  | some symbol =>
      cases hkind : symbol.kind with
      | «alias» => simpa only [hkind] using phraseAlias_erases h id symbol args o
      | klass | interface | enum => simpa only [hkind] using phraseNominal_erases h id symbol args o
      | function | «variable» | typeParameter | nameSpace =>
          simp only [hkind]
          exact .same_bind fun _ => .pure rfl

lemma phraseShape_erases (h : phrase.Erases render) (members : List Member) (o : RenderOptions) :
    (phraseShape phrase members o).Erases Phrasing.erase (renderShape render members o) := by
  rcases members with _ | ⟨⟨name, kind, isStatic, span⟩, _ | ⟨second, rest⟩⟩
  · exact .same_bind fun _ => .pure rfl
  · cases kind with
    | call sig => exact phraseFunction_erases h sig o
    | _ => exact .same_bind fun _ => .pure rfl
  · cases kind <;> exact .same_bind fun _ => .pure rfl

lemma phraseUnion_erases (h : phrase.Erases render) (steps : Nat) (ty : Ty) (members : List Ty)
    (o : RenderOptions) : (phraseUnion render phrase steps ty members o).Erases Phrasing.erase
      (renderUnion render steps ty members o) := by
  have hend : ∀ shown : Phrase, Work.Erases Phrasing.erase
      (if members.length > 1 then do return Phrasing.annotated shown (ty.text (← Work.table)) o
        else return Phrasing.plain shown)
      (if members.length > 1 then do return Rendered.annotated shown.text (ty.text (← Work.table)) o
        else return Rendered.plain shown.text) := by
    intro shown
    split_ifs
    · exact .same_bind fun _ => .pure rfl
    · exact .pure rfl
  refine .same_bind fun merged => .same_bind fun concrete => .same_bind fun s => ?_
  dsimp only
  cases shownMember (o.policy.getD s.policy) concrete with
  | none => exact .bind (e := Phrase.text) (.pure rfl) hend
  | some member =>
      exact .bind (h member _) fun p => .bind (e := Phrase.text) (.pure rfl) hend

/-- **Rendering into a phrase, put together, is rendering**, however deep it may go. -/
theorem phraseWithin_erases (depth : Nat) : (phraseWithin depth).Erases (renderWithin depth) := by
  induction depth with
  | zero => exact fun _ _ => .throw _
  | succ depth ih =>
      intro ty o
      cases ty with
      | primitive kind => exact .pure (Phrasing.erase_ofRendered _)
      | nominal symbol args => exact phraseSymbol_erases ih symbol args o
      | «alias» symbol => exact phraseSymbol_erases ih symbol _ o
      | function sig => exact phraseFunction_erases ih sig o
      | array element =>
          refine .same_bind fun element => .bind (ih element _) fun p => .pure ?_
          simp [Piece.text, String.append_assoc]
      | tuple elements =>
          refine .same_bind fun element => .bind (ih element _) fun p => .same_bind fun _ => .pure ?_
          simp [Piece.text, String.append_assoc]
      | shape members => exact phraseShape_erases ih members o
      | param name =>
          simp only [phraseWithin, renderWithin]
          cases o.bindings.bind (·.lookup name) with
          | some bound => exact ih bound o
          | none =>
              refine .same_bind fun s => ?_
              split_ifs
              · exact .pure (by simp [Piece.text])
              · exact .pure rfl
      | literal kind text => exact .pure (Phrasing.erase_ofRendered _)
      | union members => exact phraseUnion_erases ih depth _ members o
      | intersection members => exact phraseUnion_erases ih depth _ members o
      | raw text => exact .pure rfl

lemma phrase_erases : Phraser.Erases Interop.phrase Interop.render :=
  phraseWithin_erases depthLimit

end Interop
