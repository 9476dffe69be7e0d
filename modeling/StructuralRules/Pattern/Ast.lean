import StructuralRules.Pattern.Property
import StructuralRules.Pattern.Regex

/-!
# Written patterns

The shape of a pattern as it is written, before flags are applied.
-/

namespace StructuralRules

/-- Why a pattern is refused. -/
inductive PatternError where
  | unclosedGroup
  | unopenedGroup
  | lookAround
  | badGroupName
  | repeatedGroupName
  | badFlag
  | nothingToRepeat
  | badRepetition
  | badEscape
  | badCodePoint
  | backreference
  | unclosedClass
  | badClassRange
  | badClassItem
  | badWordBoundary
  | unknownProperty
  | notUnicode
  | splitsCharacter
  | tooDeep
  | tooBig
  deriving DecidableEq, Repr

/-- What a flag letter switches. -/
inductive Flag where
  | caseless
  | multiLine
  | dotAll
  | swapGreed
  | unicode
  | returns
  | verbose
  deriving DecidableEq, Repr

/-- A flag that is switched on or off. -/
structure FlagChange where
  flag : Flag
  on : Bool
  deriving DecidableEq, Repr

/-- A one-letter class. -/
inductive ShortClass where
  | digit
  | space
  | word
  deriving DecidableEq, Repr

/-- An operation between two bracketed sets. -/
inductive SetOp where
  | inter
  | diff
  | symmDiff
  deriving DecidableEq, Repr

/-- The contents of a bracketed class, or a class outside brackets. -/
inductive SetAst where
  /-- `byte` tells a code point below 256 that was written as two hexadecimal digits. -/
  | literal (c : Char) (byte : Bool)
  | range (lo hi : Char)
  | short (k : ShortClass) (negated : Bool)
  | named (s : CharSet) (negated : Bool)
  | property (p : Property) (negated : Bool)
  | bracket (negated : Bool) (body : SetAst)
  | items (l : List SetAst)
  | op (k : SetOp) (l r : SetAst)

/-- A pattern as written. -/
inductive Ast where
  | empty
  | flags (fs : List FlagChange)
  | literal (c : Char) (byte : Bool)
  | dot
  /-- Start of text, or of a line under `multiLine`. -/
  | caret
  | dollar
  | anchor (a : Anchor)
  | word (e : WordEdge)
  | set (s : SetAst)
  | repetition (min : Nat) (max : Option Nat) (greedy : Bool) (r : Ast)
  | group (fs : List FlagChange) (r : Ast)
  | alt (l : List Ast)
  | cat (l : List Ast)

mutual

/-- How deep classes nest. -/
def SetAst.depth : SetAst → Nat
  | .bracket _ body => body.depth + 1
  | .items l => SetAst.maxDepth l + 1
  | .op _ l r => max l.depth r.depth + 1
  | _ => 0

def SetAst.maxDepth : List SetAst → Nat
  | [] => 0
  | s :: l => max s.depth (SetAst.maxDepth l)

end

mutual

/-- How deep groups, repetitions, sequences, alternations and classes nest. -/
def Ast.depth : Ast → Nat
  | .set s => s.depth
  | .repetition _ _ _ r => r.depth + 1
  | .group _ r => r.depth + 1
  | .alt l => Ast.maxDepth l + 1
  | .cat l => Ast.maxDepth l + 1
  | _ => 0

def Ast.maxDepth : List Ast → Nat
  | [] => 0
  | r :: l => max r.depth (Ast.maxDepth l)

end

namespace Ast

/-- The deepest nesting that is read. -/
def depthLimit : Nat := 250

/-- Items in a row; one alone stands for itself. -/
def ofItems : List Ast → Ast
  | [] => .empty
  | [r] => r
  | l => .cat l

/-- Branches side by side; one alone stands for itself. -/
def ofBranches : List Ast → Ast
  | [r] => r
  | l => .alt l

end Ast

namespace SetAst

def ofItems : List SetAst → SetAst
  | [s] => s
  | l => .items l

end SetAst
end StructuralRules
