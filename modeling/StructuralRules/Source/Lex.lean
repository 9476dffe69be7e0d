import StructuralRules.Text.Basic

/-!
# Comments and literals

One lexer tells code from comments and from the contents of string and
character literals. It reads a character at a time and looks one character
ahead. `Lex.scanLine` runs it over one line, `Text.masked` over a whole text.
Both step with `Lex.next`; they differ in what a line feed does.
-/

namespace StructuralRules

/-- Where the lexer stands before a character. -/
inductive Lex where
  | code
  | lineComment
  | blockComment
  /-- Inside a literal opened by `quote`. -/
  | literal (quote : Char)
  /-- Before the star of a comment opener. -/
  | opening
  /-- Before the slash of a comment closer. -/
  | closing
  /-- Before the character that a backslash escapes. -/
  | escaped (quote : Char)
  deriving DecidableEq, Repr

namespace Lex

/-- The state after character `c`, when `ahead` follows it. An escape needs a
character on the same line. -/
def next (s : Lex) (c : Char) (ahead : Option Char) : Lex :=
  match s with
  | .code =>
      if c = '/' ∧ ahead = some '/' then .lineComment
      else if c = '/' ∧ ahead = some '*' then .opening
      else if c = '"' ∨ c = '\'' then .literal c
      else .code
  | .lineComment => .lineComment
  | .blockComment => if c = '*' ∧ ahead = some '/' then .closing else .blockComment
  | .opening => .blockComment
  | .closing => .code
  | .literal q =>
      if c = '\\' ∧ ahead.isSome ∧ ahead ≠ some '\n' then .escaped q
      else if c = q then .code
      else .literal q
  | .escaped q => .literal q

/-- A character is shown when it is code or a quote of a literal. -/
def shows : Lex → Lex → Bool
  | .code, .code => true
  | .code, .literal _ => true
  | .literal _, .code => true
  | _, _ => false

/-- A line feed ends line comments and literals and leaves a block comment open. -/
def afterNewline : Lex → Lex
  | .blockComment => .blockComment
  | _ => .code

end Lex

/-- What one line says about comments. -/
structure LineScan where
  /-- A block comment is still open behind the line. -/
  endsInBlock : Bool
  /-- Something other than white space stands outside comments. -/
  hasCode : Bool
  deriving DecidableEq, Repr

namespace Lex

/-- A character of a code stretch counts when it opens no comment and is no ASCII blank. -/
def countsAsCode (s s' : Lex) (c : Char) : Bool :=
  s == .code && s' != .lineComment && s' != .opening && !Text.isAsciiBlank c

def scanFrom (s : Lex) (seen : Bool) : Text → LineScan
  | [] => ⟨s == .blockComment, seen⟩
  | c :: t =>
      let s' := s.next c t.head?
      scanFrom s' (seen || countsAsCode s s' c) t

/-- Reads one line; `inBlock` says whether a block comment is open before it. -/
def scanLine (line : Text) (inBlock : Bool) : LineScan :=
  scanFrom (if inBlock then .blockComment else .code) false line

end Lex

namespace Text

/-- Whether a trimmed line opens with a comment. -/
def startsWithComment (t : Text) : Bool :=
  ['/', '/'].isPrefixOf t || ['/', '*'].isPrefixOf t

/-- As many spaces as the character has bytes. -/
def blanksFor (c : Char) : Text :=
  List.replicate c.utf8Size ' '

/-- The masked form of a text that starts in state `s`. -/
def maskedFrom (s : Lex) : Text → Text
  | [] => []
  | c :: t =>
      if c = '\n' then c :: maskedFrom s.afterNewline t
      else
        let s' := s.next c t.head?
        (if s.shows s' then [c] else blanksFor c) ++ maskedFrom s' t

/-- Comments and the contents of literals blanked; quotes, line feeds and byte
offsets stay. -/
def masked (t : Text) : Text :=
  maskedFrom .code t

end Text
end StructuralRules
