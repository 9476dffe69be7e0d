import StructuralRules.Source.Lex

/-!
# Lists between commas

A list is cut at the commas that stand outside all brackets. The masked copy
decides where they are, and the pieces are taken from the text itself.
-/

set_option autoImplicit false

namespace StructuralRules.Text

/-- Offsets of the commas at depth zero. A closer at depth zero changes nothing. -/
def commasFrom (depth off : Nat) : Text → List Nat
  | [] => []
  | c :: t =>
      if c = '(' ∨ c = '[' ∨ c = '{' then commasFrom (depth + 1) (off + c.utf8Size) t
      else if c = ')' ∨ c = ']' ∨ c = '}' then commasFrom (depth - 1) (off + c.utf8Size) t
      else if c = ',' ∧ depth = 0 then off :: commasFrom depth (off + c.utf8Size) t
      else commasFrom depth (off + c.utf8Size) t

/-- The pieces of a text from `start` on, cut at the offsets. -/
def cutAt (t : Text) (start : Nat) : List Nat → List Text
  | [] => [(drop? t start).getD []]
  | o :: os => slice t start o :: cutAt t (o + 1) os

/-- The pieces of `text` between the commas that stand outside brackets in `masked`. -/
def topLevelPieces (masked text : Text) : List Text :=
  cutAt text 0 (commasFrom 0 0 masked)

/-- The pieces, each trimmed. -/
def splitTopLevel (masked text : Text) : List Text :=
  (topLevelPieces masked text).map trim

end StructuralRules.Text
