/-!
# Places in a source text

A span is a half-open range of byte offsets into the UTF-8 text of one file.

* `Span.slice` — the text a span covers; empty when the span does not name a range of whole
  characters.
* `Span.le` — the order in which diagnostics of one file are listed.
-/

namespace Interop

/-- A half-open range of byte offsets. -/
structure Span where
  start : Nat
  stop : Nat
  deriving DecidableEq, Repr, Inhabited

namespace Span

/-- The span of things that come from no text. -/
def none : Span := ⟨0, 0⟩

/-- Spans are listed by where they start, and by where they stop when they start together. -/
def le (a b : Span) : Bool :=
  a.start < b.start || (a.start == b.start && a.stop ≤ b.stop)

/-- The two offsets as they stand in a message. -/
def text (s : Span) : String :=
  toString s.start ++ ".." ++ toString s.stop

/-! ## Cutting a text at byte offsets -/

/-- What is left of a text after its first `n` bytes, if they end between two characters. -/
def dropBytes : Nat → List Char → Option (List Char)
  | 0, cs => some cs
  | _ + 1, [] => Option.none
  | n + 1, c :: cs => if c.utf8Size ≤ n + 1 then dropBytes (n + 1 - c.utf8Size) cs else Option.none
  termination_by _ cs => cs.length

/-- The first `n` bytes of a text, if they end between two characters. -/
def takeBytes : Nat → List Char → Option (List Char)
  | 0, _ => some []
  | _ + 1, [] => Option.none
  | n + 1, c :: cs =>
    if c.utf8Size ≤ n + 1 then (takeBytes (n + 1 - c.utf8Size) cs).map (c :: ·) else Option.none
  termination_by _ cs => cs.length

/-- The text a span covers. -/
def slice (s : Span) (source : String) : String :=
  if s.start ≤ s.stop then
    match (dropBytes s.start source.toList).bind (takeBytes (s.stop - s.start)) with
    | some cs => String.ofList cs
    | Option.none => ""
  else ""

end Span

end Interop
