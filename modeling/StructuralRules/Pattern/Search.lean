import StructuralRules.Pattern.Regex

/-!
# Searching

A search takes the leftmost position at which the expression matches at all and
the preferred match there. Offsets are bytes. What stands before the start of a
search still counts for the anchors.
-/

namespace StructuralRules

/-- The bytes from `start` up to `stop`. -/
structure Span where
  start : Nat
  stop : Nat
  deriving DecidableEq, Repr

namespace Regex

/-- The match at offset `off` of a text `t` behind `before`, if the search has
reached that offset. -/
def spanAt? (r : Regex) (cursor : Nat) (before : Option Char) (off : Nat) (t : Text) :
    Option Span :=
  if cursor ≤ off then (r.matchSize? before t).map fun n => ⟨off, off + n⟩ else none

/-- The first match at offset `cursor` or later, where `off` is the offset of the
text and `before` stands before it. -/
def findFrom (r : Regex) (cursor : Nat) (before : Option Char) (off : Nat) : Text → Option Span
  | [] => r.spanAt? cursor before off []
  | c :: t =>
      match r.spanAt? cursor before off (c :: t) with
      | some s => some s
      | none => findFrom r cursor (some c) (off + c.utf8Size) t

/-- The first match that starts at byte `cursor` or later. -/
def findAt? (r : Regex) (t : Text) (cursor : Nat) : Option Span :=
  r.findFrom cursor none 0 t

/-- The first match. -/
def find? (r : Regex) (t : Text) : Option Span :=
  r.findAt? t 0

def isMatch (r : Regex) (t : Text) : Bool :=
  (r.find? t).isSome

/-- An empty match right behind the match before it, which ended at `last`, is
passed over. -/
def passesOver (last : Option Nat) (s : Span) : Bool :=
  s.start == s.stop && last == some s.stop

/-- All matches from `cursor` on that do not overlap; the one before ended at `last`. -/
def spansFrom (r : Regex) (cursor : Nat) (last : Option Nat) (before : Option Char) (off : Nat) :
    Text → List Span
  | [] => ((r.spanAt? cursor before off []).filter (!passesOver last ·)).toList
  | c :: t =>
      match (r.spanAt? cursor before off (c :: t)).filter (!passesOver last ·) with
      | some s => s :: spansFrom r s.stop (some s.stop) (some c) (off + c.utf8Size) t
      | none => spansFrom r cursor last (some c) (off + c.utf8Size) t

/-- The matches in text order, none of which overlap. -/
def spans (r : Regex) (t : Text) : List Span :=
  r.spansFrom 0 none none 0 t

end Regex
end StructuralRules
