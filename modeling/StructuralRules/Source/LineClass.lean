import StructuralRules.Source.Lex

/-!
# Line classes

Each physical line is a comment, blank, excused by an exception marker, or
code. A marker excuses the line it stands on and the next line that is not
blank. A line that continues a block comment is a comment, whatever follows the
closer on it.
-/

namespace StructuralRules

/-- What a physical line is to the rules. -/
inductive LineClass where
  | comment
  | blank
  | exceptionMarked
  | code
  deriving DecidableEq, Repr

namespace LineClass

/-- Only such lines may be anchors of a finding. -/
def isCode (c : LineClass) : Bool :=
  c == .code

/-- Part of the program, excused or not. -/
def isExecutable (c : LineClass) : Bool :=
  c == .code || c == .exceptionMarked

end LineClass

/-- The substrings that excuse a line. -/
abbrev Markers := List String

namespace Markers

/-- Whether a marker stands on the line or on the closest earlier line that is not blank. -/
def excuse (ms : Markers) (line : Text) (previous : Option Text) : Bool :=
  ms.any fun m =>
    Text.contains m.toList line || previous.any (Text.contains m.toList)

/-- The class of a line and whether a block comment is open behind it. -/
def classify (ms : Markers) (line : Text) (previous : Option Text) (inBlock : Bool) :
    LineClass × Bool :=
  let trimmed := Text.trim line
  let cls :=
    if inBlock then .comment
    else if trimmed.isEmpty then .blank
    else if trimmed.startsWithComment then .comment
    else if ms.excuse line previous then .exceptionMarked
    else .code
  (cls, (Lex.scanLine line inBlock).endsInBlock)

def classifyFrom (ms : Markers) (inBlock : Bool) (previous : Option Text) :
    List Text → List LineClass
  | [] => []
  | line :: rest =>
      let (cls, open') := ms.classify line previous inBlock
      cls :: ms.classifyFrom open' (if (Text.trim line).isEmpty then previous else some line) rest

/-- The classes of consecutive lines, the first of which starts outside comments. -/
def classifyLines (ms : Markers) (lines : List Text) : List LineClass :=
  ms.classifyFrom false none lines

/-- The markers that hold when the settings name none. -/
def standard : Markers :=
  ["// EXCEPTION:", "/* EXCEPTION:", "// FFI:", "/* FFI:"]

end Markers
end StructuralRules
