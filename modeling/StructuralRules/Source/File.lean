import StructuralRules.Source.LineClass

/-!
# Source files

A file is its path relative to the scan root and its text. Lines are numbered
from one.
-/

set_option autoImplicit false

namespace StructuralRules

namespace Text

/-- Offsets at which a piece starts, from `off` on: behind each line feed that is not the
last character. -/
def startsFrom (off : Nat) : Text → List Nat
  | [] => []
  | c :: t =>
      if c = '\n' ∧ t ≠ [] then (off + 1) :: startsFrom (off + 1) t
      else startsFrom (off + c.utf8Size) t

/-- Offsets at which the lines start. A text always has a first line start. -/
def lineStarts (t : Text) : List Nat :=
  0 :: startsFrom 0 t

/-- Looks for `offset` among increasing offsets, the first of which has index `base`. The window is
halved until at most one of them is left. Gives the index of `offset`, or as an error the index at
which it would have to stand. -/
def searchStarts (offset base : Nat) (window : List Nat) : Except Nat Nat :=
  if h : 1 < window.length then
    let half := window.length / 2
    if offset < window[half] then searchStarts offset base (window.take (window.length - half))
    else searchStarts offset (base + half) (window.drop half)
  else
    match window with
    | [] => .error base
    | start :: _ =>
        if start = offset then .ok base
        else if start < offset then .error (base + 1)
        else .error base
termination_by window.length
decreasing_by
  · simp only [List.length_take]
    omega
  · simp only [List.length_drop]
    omega

/-- The number of the last line that starts at or before the offset that was looked for. -/
def lineFound : Except Nat Nat → Nat
  | .ok index => index + 1
  | .error index => index

end Text

/-- One source file. -/
structure SourceFile where
  path : String
  text : Text
  deriving DecidableEq, Repr

namespace SourceFile

def lines (f : SourceFile) : List Text :=
  Text.lines f.text

def lineCount (f : SourceFile) : Nat :=
  f.lines.length

/-- Line `n`, without its line ending. -/
def line? (f : SourceFile) (n : Nat) : Option Text :=
  match n with
  | 0 => none
  | n + 1 => f.lines[n]?

/-- The lines with their numbers. -/
def numbered (f : SourceFile) : List (Nat × Text) :=
  (f.lines.zipIdx 1).map fun (l, n) => (n, l)

/-- The number of the line that holds the byte at `offset`. -/
def lineOfOffset (f : SourceFile) (offset : Nat) : Nat :=
  Text.lineFound (Text.searchStarts offset 0 (Text.lineStarts f.text))

/-- The file with comments and the contents of literals blanked. -/
def masked (f : SourceFile) : SourceFile :=
  { f with text := Text.masked f.text }

/-- The class of every line. -/
def classes (f : SourceFile) (ms : Markers) : List LineClass :=
  ms.classifyLines f.lines

/-- The numbered lines of class code. -/
def codeLines (f : SourceFile) (ms : Markers) : List (Nat × Text) :=
  ((f.numbered.zip (f.classes ms)).filter (·.2.isCode)).map (·.1)

end SourceFile
end StructuralRules
