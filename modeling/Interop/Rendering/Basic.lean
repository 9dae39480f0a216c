import Interop.Session
import Interop.Type.Substitution

/-!
# Rendered types

A type of the source becomes the text of a type of the target, and a note that says what the
text could not.

* `RenderOptions` — where the text will stand.
* `Rendered.withComment` — the text with its note as a comment.
-/

namespace Interop

/-- Where a rendered type will stand, and what is known of its type parameters. -/
structure RenderOptions where
  /-- The text will itself be part of a comment. -/
  insideComment : Bool := false
  /-- The text will be an argument of a generic type. -/
  insideTypeArgument : Bool := false
  /-- The note of the type itself is dropped; those of its parts are kept. -/
  hideComment : Bool := false
  /-- The arguments of an alias that is referred to without any. -/
  typeArguments : Option (List Ty) := none
  /-- What type parameters stand for. -/
  bindings : Option Bindings := none
  /-- The union policy, where it is not that of the run. -/
  policy : Option UnionPolicy := none

namespace RenderOptions

/-- Options for text that identifies a type: no note at any depth. -/
def key : RenderOptions :=
  { insideComment := true, hideComment := true }

/-- Options for a part of a type. -/
def nested (o : RenderOptions) : RenderOptions :=
  { insideComment := o.insideComment, bindings := o.bindings, policy := o.policy }

/-- Options for an argument of a generic type. -/
def argument (o : RenderOptions) : RenderOptions :=
  { o.nested with insideTypeArgument := true }

/-- Whether a type is annotated here. -/
def annotates (o : RenderOptions) : Bool :=
  !o.insideComment && !o.hideComment

end RenderOptions

/-- A type of the target, and what it does not say. -/
structure Rendered where
  text : String
  note : Option String := none
  deriving DecidableEq, Repr, Inhabited

/-- The target's untyped type. -/
def untypedText : String := "dynamic"

/-- The target's result type of a call without a result. -/
def absentText : String := "void"

/-- The target's type of `null`. -/
def nullText : String := "Null"

/-- The target's type of all functions. -/
def functionText : String := "Function"

namespace Rendered

/-- A text that says everything. -/
def plain (text : String) : Rendered := ⟨text, none⟩

/-- A text with a note, where notes are written. -/
def annotated (text note : String) (o : RenderOptions) : Rendered :=
  ⟨text, if o.annotates then some note else none⟩

/-- Whether the text names a type, rather than saying that there is none or that it is unknown. -/
def isConcrete (r : Rendered) : Bool :=
  r.text != untypedText && r.text != absentText && r.text != nullText

/-- The text, followed by the note as a comment. -/
def withComment (r : Rendered) : String :=
  match r.note with
  | some note => r.text ++ " /*" ++ note ++ "*/"
  | none => r.text

end Rendered

/-- A way to render types. -/
abbrev Renderer := Ty → RenderOptions → Work Rendered

/-- The text that identifies a type: types with one key are written in the same way. -/
def Renderer.key (render : Renderer) (ty : Ty) : Work String := do
  return (← Work.detached (render ty .key)).text

end Interop
