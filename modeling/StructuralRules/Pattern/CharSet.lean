import StructuralRules.Text.Basic
import StructuralRules.Unicode.CaseFold
import StructuralRules.Unicode.Script
import StructuralRules.Unicode.Word

/-!
# Character sets

The sets that a pattern can name, kept as expressions. Membership is decided
character by character, so no set is ever written out as a table.
-/

namespace StructuralRules

open Unicode

/-- A Unicode property that a pattern can ask for by name. -/
inductive Property where
  /-- The code points of the listed categories. -/
  | categories (cs : List Category)
  /-- The script with the four-letter code. -/
  | script (code : String)
  | alphabetic
  | lowercase
  | uppercase
  | whiteSpace
  | ascii
  | any
  deriving DecidableEq, Repr

/-- Code points that are lower case without being lower case letters. -/
def otherLowercase : List (Nat × Nat) :=
  [(0xAA, 0xAA), (0xBA, 0xBA), (0x2B0, 0x2B8), (0x2C0, 0x2C1), (0x2E0, 0x2E4), (0x345, 0x345),
   (0x37A, 0x37A), (0x10FC, 0x10FC), (0x1D2C, 0x1D6A), (0x1D78, 0x1D78), (0x1D9B, 0x1DBF),
   (0x2071, 0x2071), (0x207F, 0x207F), (0x2090, 0x209C), (0x2170, 0x217F), (0x24D0, 0x24E9),
   (0x2C7C, 0x2C7D), (0xA69C, 0xA69D), (0xA770, 0xA770), (0xA7F2, 0xA7F4), (0xA7F8, 0xA7F9),
   (0xAB5C, 0xAB5F), (0xAB69, 0xAB69), (0x10780, 0x10780), (0x10783, 0x10785),
   (0x10787, 0x107B0), (0x107B2, 0x107BA), (0x1E030, 0x1E06D)]

/-- Code points that are upper case without being upper case letters. -/
def otherUppercase : List (Nat × Nat) :=
  [(0x2160, 0x216F), (0x24B6, 0x24CF), (0x1F130, 0x1F149), (0x1F150, 0x1F169), (0x1F170, 0x1F189)]

def inRanges (ranges : List (Nat × Nat)) (c : Char) : Bool :=
  ranges.any fun (lo, hi) => lo ≤ c.toNat && c.toNat ≤ hi

def Property.holds (p : Property) (c : Char) : Bool :=
  match p with
  | .categories cs => cs.contains (category c)
  | .script code => inScript code c
  | .alphabetic => isAlphabetic c
  | .lowercase => category c == .lowercaseLetter || inRanges otherLowercase c
  | .uppercase => category c == .uppercaseLetter || inRanges otherUppercase c
  | .whiteSpace => Text.isBlank c
  | .ascii => c.toNat < 128
  | .any => true

/-- A set of characters. -/
inductive CharSet where
  | none
  /-- The code points from `lo` to `hi`, both included. -/
  | range (lo hi : Nat)
  | word
  | digit
  | space
  | property (p : Property)
  | union (a b : CharSet)
  | inter (a b : CharSet)
  | compl (a : CharSet)
  /-- The members of `a` and their case variants. -/
  | caseless (a : CharSet)
  /-- The members of `a` and the other case of its ASCII letters. -/
  | asciiCaseless (a : CharSet)
  deriving DecidableEq, Repr

namespace CharSet

def contains (s : CharSet) (c : Char) : Bool :=
  match s with
  | .none => false
  | .range lo hi => lo ≤ c.toNat && c.toNat ≤ hi
  | .word => isWord c
  | .digit => isDigit c
  | .space => Text.isBlank c
  | .property p => p.holds c
  | .union a b => a.contains c || b.contains c
  | .inter a b => a.contains c && b.contains c
  | .compl a => !a.contains c
  | .caseless a => (caseVariants c).any a.contains
  | .asciiCaseless a => (asciiVariants c).any a.contains

def single (c : Char) : CharSet :=
  .range c.toNat c.toNat

def ofRanges : List (Nat × Nat) → CharSet
  | [] => .none
  | [(lo, hi)] => .range lo hi
  | (lo, hi) :: rest => .union (.range lo hi) (ofRanges rest)

def ofChars (cs : List Char) : CharSet :=
  ofRanges (cs.map fun c => (c.toNat, c.toNat))

def diff (a b : CharSet) : CharSet :=
  .inter a (.compl b)

/-- The characters in exactly one of the two sets. -/
def symmDiff (a b : CharSet) : CharSet :=
  .union (diff a b) (diff b a)

/-- `a`, or its complement. -/
def negateIf (negated : Bool) (a : CharSet) : CharSet :=
  if negated then .compl a else a

end CharSet
end StructuralRules
