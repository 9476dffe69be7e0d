import StructuralRules.Pattern.Search
import StructuralRules.Source.Argument
import StructuralRules.Source.Body
import StructuralRules.Source.File

/-!
# Call sites

A call is the name, at a word boundary, before a parenthesised list in the
masked text. A definition, a prototype and the name a macro defines are no
calls; neither is anything in a directive other than a macro's body.
-/

set_option autoImplicit false

namespace StructuralRules

/-- One call of a named function. -/
structure Call where
  name : String
  /-- Line of the name. -/
  line : Nat
  /-- Offset of the name. -/
  offset : Nat
  /-- The arguments as written, trimmed. -/
  args : List Text
  /-- Class of the line. -/
  lineClass : LineClass
  deriving DecidableEq, Repr

namespace Call

/-- The name at a word boundary, blanks, and an opening parenthesis. -/
def header (name : String) : Regex :=
  .seq [.anchor (.word .boundary true), .literal name.toList, .star true (.set .space), .char '(']

/-- Words that may stand before a call without making it a declaration. -/
def keywords : List String :=
  ["return", "else", "case", "do", "sizeof", "goto"]

/-- Whether what stands before the name on its line reads as a return type, as a macro's head,
or as another directive. -/
def isDeclaration (before : Text) : Bool :=
  match Text.trim before with
  | [] => false
  | '#' :: t =>
      let directive := Text.trimStart t
      !"define".toList.isPrefixOf directive || directive == "define".toList
  | before =>
      let typeLike := before.all fun c => Text.isIdentChar c || c == '*' || Text.isBlank c
      let word := before.takeWhile Text.isIdentChar
      typeLike && Text.isIdentifier word && !keywords.contains (String.ofList word)

/-- What stands before byte `offset` on its line. -/
def lineHead (t : Text) (offset : Nat) : Text :=
  (((Text.take? t offset).getD []).reverse.takeWhile (· != '\n')).reverse

/-- The arguments between two offsets; a blank list has none. -/
def argsBetween (masked text : Text) (start stop : Nat) : List Text :=
  match Text.splitTopLevel (Text.slice masked start stop) (Text.slice text start stop) with
  | [[]] => []
  | args => args

/-- The call whose header matches at `s`. -/
def atSpan? (file : SourceFile) (masked : Text) (classes : List LineClass) (name : String)
    (s : Span) : Option Call := do
  let opening := s.stop - 1
  let list ← Text.drop? masked opening
  let stop ← Text.closeFrom '(' ')' 0 opening list
  let behind := Text.trimStart ((Text.drop? masked stop).getD [])
  if behind.head? == some '{' then none
  if isDeclaration (lineHead masked s.start) then none
  let line := file.lineOfOffset s.start
  let cls := (classes[line - 1]?).getD .code
  if !cls.isExecutable then none
  return ⟨name, line, s.start, argsBetween masked file.text (opening + 1) (stop - 1), cls⟩

/-- The calls of `name` in a file, in text order. Excused calls are among them. -/
def all (file : SourceFile) (name : String) (ms : Markers) : List Call :=
  let masked := file.text.masked
  let classes := file.classes ms
  ((header name).spans masked).filterMap (atSpan? file masked classes name)

end Call
end StructuralRules
