import StructuralRules.Pattern.Search
import StructuralRules.Source.Lex

/-!
# Braced bodies

A body starts where a header matches in the masked text and ends with the brace
that closes the first brace at or behind that place. Braces in comments and
literals do not count, because they are not in the masked text.
-/

set_option autoImplicit false

namespace StructuralRules

/-- A region of a text from a header to the closing brace. -/
structure Body where
  /-- Offset of the header. -/
  header : Nat
  /-- Offset of the opening brace. -/
  opening : Nat
  /-- Offset just behind the closing brace. -/
  stop : Nat
  /-- Line of the header. -/
  startLine : Nat
  /-- The text from the header through the closing brace. -/
  text : Text
  deriving DecidableEq, Repr

namespace Body

/-- The text between the braces. -/
def inner (b : Body) : Text :=
  Text.slice b.text (b.opening - b.header + 1) (b.stop - b.header - 1)

/-- Line of the opening brace. -/
def openLine (b : Body) : Nat :=
  b.startLine + Text.newlines (Text.slice b.text 0 (b.opening - b.header))

/-- Line of the closing brace. -/
def endLine (b : Body) : Nat :=
  b.startLine + Text.newlines b.text

end Body

namespace Text

/-- Offset just behind the bracket that closes the last of `depth` open ones, where `off` is
the offset of the text. -/
def closeFrom (opener closer : Char) (depth off : Nat) : Text → Option Nat
  | [] => none
  | c :: t =>
      if c = opener then closeFrom opener closer (depth + 1) (off + c.utf8Size) t
      else if c = closer then
        if depth ≤ 1 then some (off + c.utf8Size)
        else closeFrom opener closer (depth - 1) (off + c.utf8Size) t
      else closeFrom opener closer depth (off + c.utf8Size) t

/-- The body whose header starts at `start`. -/
def bodyAt? (text masked : Text) (start : Nat) : Option Body := do
  let behind ← drop? masked start
  let opening := start + (← offsetOf? (· == '{') behind)
  let braced ← drop? masked opening
  let stop ← closeFrom '{' '}' 0 opening braced
  let before ← take? text start
  let body ← slice? text start stop
  return ⟨start, opening, stop, newlines before + 1, body⟩

/-- The body of the first header match that has one. -/
def firstBody? (text : Text) (header : Regex) : Option Body :=
  let masked := text.masked
  (header.spans masked).findSome? fun s => bodyAt? text masked s.start

/-- Where a search goes on: behind the body, or behind a header match without one. -/
def cursorAfter (body : Option Body) (s : Span) : Nat :=
  match body with
  | some b => b.stop
  | none => max s.stop (s.start + 1)

/-- The bodies from `cursor` on. -/
def bodiesFrom (text masked : Text) (header : Regex) (cursor : Nat) : List Body :=
  match header.findAt? masked cursor with
  | none => []
  | some s =>
      if cursor < cursorAfter (bodyAt? text masked s.start) s ∧
          cursorAfter (bodyAt? text masked s.start) s < byteLength masked then
        (bodyAt? text masked s.start).toList ++
          bodiesFrom text masked header (cursorAfter (bodyAt? text masked s.start) s)
      else (bodyAt? text masked s.start).toList
termination_by byteLength masked - cursor
decreasing_by omega

/-- All bodies whose headers match, in text order and without overlap. -/
def bodies (text : Text) (header : Regex) : List Body :=
  bodiesFrom text text.masked header 0

/-- How the first matches of two patterns in the masked text compare, if both match. -/
def compareFirst? (body : Text) (first second : Regex) : Option Ordering := do
  let masked := body.masked
  let a ← first.find? masked
  let b ← second.find? masked
  return compare a.start b.start

end Text
end StructuralRules
