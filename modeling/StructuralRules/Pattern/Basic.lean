import StructuralRules.Pattern.Reader
import StructuralRules.Pattern.Search

/-!
# Patterns

A pattern is the text a rule's author wrote together with the expression it
means. Flags act from where they are set to the end of the enclosing group. A
pattern whose expression would take more than `Pattern.sizeLimit` bytes as a
machine over bytes is refused.
-/

set_option autoImplicit false

namespace StructuralRules

/-- The switches in force at a place of a pattern. -/
structure Flags where
  caseless : Bool
  multiLine : Bool
  dotAll : Bool
  swapGreed : Bool
  unicode : Bool
  returns : Bool

namespace Flags

def initial : Flags :=
  ⟨false, false, false, false, true, false⟩

def change (f : Flags) (c : FlagChange) : Flags :=
  match c.flag with
  | .caseless => { f with caseless := c.on }
  | .multiLine => { f with multiLine := c.on }
  | .dotAll => { f with dotAll := c.on }
  | .swapGreed => { f with swapGreed := c.on }
  | .unicode => { f with unicode := c.on }
  | .returns => { f with returns := c.on }
  | .verbose => f

def changeAll (f : Flags) (cs : List FlagChange) : Flags :=
  cs.foldl change f

/-- The set closed under case, if case makes no difference. -/
def foldSet (f : Flags) (s : CharSet) : CharSet :=
  if f.caseless then (if f.unicode then .caseless s else .asciiCaseless s) else s

end Flags

namespace Pattern

/-- Without Unicode a character is a byte, and only ASCII ones can stand alone. -/
def literalSet (f : Flags) (c : Char) (byte : Bool) : Except PatternError CharSet :=
  if f.unicode || c.toNat < 128 then .ok (.single c)
  else if byte then .error .splitsCharacter
  else .error .notUnicode

def shortSet (f : Flags) : ShortClass → CharSet
  | .digit => if f.unicode then .digit else .range '0'.toNat '9'.toNat
  | .space => if f.unicode then .space else .union (.range 9 13) (.single ' ')
  | .word =>
      if f.unicode then .word
      else .ofRanges [('0'.toNat, '9'.toNat), ('A'.toNat, 'Z'.toNat), ('_'.toNat, '_'.toNat),
        ('a'.toNat, 'z'.toNat)]

/-- Without Unicode a set may hold no byte outside ASCII. All of those are alike to it. -/
def checkSet (f : Flags) (s : CharSet) : Except PatternError CharSet :=
  if !f.unicode && s.contains '\x80' then .error .splitsCharacter else .ok s

mutual

/-- The set that a class means, case and negation of the class applied. -/
def setOf (f : Flags) : SetAst → Except PatternError CharSet
  | .literal c byte => literalSet f c byte
  | .range lo hi => do
      let _ ← literalSet f lo false
      let _ ← literalSet f hi false
      return .range lo.toNat hi.toNat
  | .short k negated => checkSet f (CharSet.negateIf negated (shortSet f k))
  | .named s negated => checkSet f (CharSet.negateIf negated (f.foldSet s))
  | .property p negated =>
      if f.unicode then return CharSet.negateIf negated (f.foldSet (.property p))
      else throw .notUnicode
  | .bracket negated body => do
      checkSet f (CharSet.negateIf negated (f.foldSet (← setOf f body)))
  | .items l => setOfAll f l
  | .op k l r => do
      let l := f.foldSet (← setOf f l)
      let r := f.foldSet (← setOf f r)
      match k with
      | .inter => return .inter l r
      | .diff => return .diff l r
      | .symmDiff => return .symmDiff l r

def setOfAll (f : Flags) : List SetAst → Except PatternError CharSet
  | [] => return .none
  | [s] => setOf f s
  | s :: l => do return .union (← setOf f s) (← setOfAll f l)

end

/-- The largest machine, in bytes. -/
def sizeLimit : Nat := 10 * 1024 * 1024

/-- Bytes that one state of the machine takes. -/
def stateSize : Nat := 32

/-- About how many bytes a set takes as a machine over bytes. -/
def setSize : CharSet → Nat
  | .none => stateSize
  | .range _ hi => if hi < 128 then stateSize else 16 * stateSize
  | .word => 60000
  | .digit => 4000
  | .space => 1000
  | .property _ => 20000
  | .union a b | .inter a b => max stateSize (max (setSize a) (setSize b))
  | .compl a | .caseless a | .asciiCaseless a => setSize a

/-- About how many bytes a repetition of something of the given size takes. -/
def repetitionSize (least : Nat) (most : Option Nat) (size : Nat) : Nat :=
  match most with
  | some most => most * (size + stateSize)
  | none => (max least 1) * size + stateSize

mutual

/-- The expression, its size in bytes, and the flags in force behind it. -/
def regexOf (f : Flags) : Ast → Except PatternError (Regex × Nat × Flags)
  | .empty => return (.empty, stateSize, f)
  | .flags cs => return (.empty, 0, f.changeAll cs)
  | .literal c byte => do
      let s ← literalSet f c byte
      return (.set (f.foldSet s), c.utf8Size * stateSize, f)
  | .dot =>
      if f.unicode then
        let excluded : CharSet :=
          if f.dotAll then .none
          else if f.returns then .ofChars ['\r', '\n']
          else .single '\n'
        return (.set (.compl excluded), 16 * stateSize, f)
      else throw .splitsCharacter
  | .caret =>
      let a : Anchor :=
        if f.multiLine then (if f.returns then .returnLineStart else .lineStart) else .textStart
      return (.anchor a, stateSize, f)
  | .dollar =>
      let a : Anchor :=
        if f.multiLine then (if f.returns then .returnLineEnd else .lineEnd) else .textEnd
      return (.anchor a, stateSize, f)
  | .anchor a => return (.anchor a, stateSize, f)
  | .word e => return (.anchor (.word e f.unicode), stateSize, f)
  | .set s => do
      let s ← setOf f s
      return (.set s, setSize s, f)
  | .repetition least most greedy r => do
      let (r, size, f) ← regexOf f r
      let size := repetitionSize least most size
      if sizeLimit < size then throw .tooBig
      return (.repeated (greedy != f.swapGreed) least most r, size, f)
  | .group cs r => do
      let (r, size, _) ← regexOf (f.changeAll cs) r
      return (r, size + 2 * stateSize, f)
  | .alt l => regexOfAlt f l
  | .cat l => regexOfCat f l

def regexOfAlt (f : Flags) : List Ast → Except PatternError (Regex × Nat × Flags)
  | [] => return (.empty, stateSize, f)
  | [r] => regexOf f r
  | r :: l => do
      let (r, m, f) ← regexOf f r
      let (s, n, f) ← regexOfAlt f l
      return (.alt r s, m + n + stateSize, f)

def regexOfCat (f : Flags) : List Ast → Except PatternError (Regex × Nat × Flags)
  | [] => return (.empty, stateSize, f)
  | [r] => regexOf f r
  | r :: l => do
      let (r, m, f) ← regexOf f r
      let (s, n, f) ← regexOfCat f l
      return (r.andThen s, m + n, f)

end

end Pattern

/-- A pattern that compiled. -/
structure Pattern where
  /-- The pattern as written. -/
  source : String
  regex : Regex

namespace Pattern

/-- The expression that the text means. -/
def parse (source : Text) : Except PatternError Regex := do
  let ast ← readAst source
  let (r, size, _) ← regexOf .initial ast
  if sizeLimit < size then throw .tooBig
  return r

def compile (source : String) : Except PatternError Pattern := do
  return ⟨source, ← parse source.toList⟩

def isMatch (p : Pattern) (t : Text) : Bool :=
  p.regex.isMatch t

def find? (p : Pattern) (t : Text) : Option Span :=
  p.regex.find? t

end Pattern
end StructuralRules
