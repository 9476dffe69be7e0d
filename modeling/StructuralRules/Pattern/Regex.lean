import StructuralRules.Pattern.CharSet

/-!
# Regular expressions and the preferred match

A match is preferred in the order in which the expression lists its choices:
the left branch of an alternation before the right one, one more round of a
greedy loop before leaving it. `Regex.moves` lists, in that order, what an
expression can do at a position: accept, or read a character and go on with a
rest. `Regex.run` follows all rests at once, best first. An acceptance discards
what stands behind it, and a better rest may still override it later.
-/

namespace StructuralRules

/-- Where a position stands relative to words. -/
inductive WordEdge where
  | boundary
  | noBoundary
  | start
  | stop
  /-- No word character before. -/
  | startHalf
  /-- No word character after. -/
  | stopHalf
  deriving DecidableEq, Repr

/-- A condition on a position that reads nothing. -/
inductive Anchor where
  | textStart
  | textEnd
  | lineStart
  | lineEnd
  /-- A line may also end in a carriage return, alone or before the line feed. -/
  | returnLineStart
  | returnLineEnd
  | word (edge : WordEdge) (unicode : Bool)
  deriving DecidableEq, Repr

namespace Anchor

/-- Whether the condition holds between `before` and `after`; `none` is the text's edge. -/
def holds (a : Anchor) (before after : Option Char) : Bool :=
  match a with
  | .textStart => before.isNone
  | .textEnd => after.isNone
  | .lineStart => before.isNone || before == some '\n'
  | .lineEnd => after.isNone || after == some '\n'
  | .returnLineStart =>
      before.isNone || before == some '\n' || (before == some '\r' && after != some '\n')
  | .returnLineEnd =>
      after.isNone || after == some '\r' || (after == some '\n' && before != some '\r')
  | .word edge unicode =>
      let isWord := if unicode then Unicode.isWord else Text.isIdentChar
      let b := before.any isWord
      let f := after.any isWord
      match edge with
      | .boundary => b != f
      | .noBoundary => b == f
      | .start => !b && f
      | .stop => b && !f
      | .startHalf => !b
      | .stopHalf => !f

end Anchor

/-- A regular expression. `plus r` is one round of `r` and then `loop r`;
`loop r` is any number of further rounds, each of which reads something. -/
inductive Regex where
  | empty
  | set (s : CharSet)
  | anchor (a : Anchor)
  | cat (r s : Regex)
  | alt (r s : Regex)
  | opt (greedy : Bool) (r : Regex)
  | plus (greedy : Bool) (r : Regex)
  | loop (greedy : Bool) (r : Regex)
  deriving DecidableEq, Repr

/-- What an expression can do at a position. -/
inductive Move where
  | accept
  | read (s : CharSet) (rest : Regex)
  deriving DecidableEq, Repr

namespace Regex

/-- `r`, then `s`. -/
def andThen (r s : Regex) : Regex :=
  match r with
  | .empty => s
  | r => .cat r s

end Regex

namespace Move

/-- Goes on with `s` behind what was read; an acceptance stays one. -/
def before (s : Regex) : Move → Move
  | .accept => .accept
  | .read k r => .read k (r.andThen s)

/-- Goes on with `s` behind what was read; an acceptance is dropped. -/
def readingBefore (s : Regex) : Move → Option Move
  | .accept => none
  | .read k r => some (.read k (r.andThen s))

/-- The rest behind character `c`, if the move reads it. -/
def rest? (c : Char) : Move → Option Regex
  | .accept => none
  | .read k r => if k.contains c then some r else none

end Move

namespace Regex

/-- The moves of an expression between `before` and `after`, preferred first. -/
def moves (before after : Option Char) : Regex → List Move
  | .empty => [.accept]
  | .set s => [.read s .empty]
  | .anchor a => if a.holds before after then [.accept] else []
  | .cat r s =>
      (moves before after r).flatMap fun
        | .accept => moves before after s
        | .read k r' => [.read k (r'.andThen s)]
  | .alt r s => moves before after r ++ moves before after s
  | .opt greedy r =>
      if greedy then moves before after r ++ [.accept] else .accept :: moves before after r
  | .plus greedy r => (moves before after r).map (Move.before (.loop greedy r))
  | .loop greedy r =>
      let again := (moves before after r).filterMap (Move.readingBefore (.loop greedy r))
      if greedy then again ++ [.accept] else .accept :: again

/-- Follows the rests `rs`, best first, through the text. `size` bytes are read so
far and `best` is the size of the best match seen. -/
def run (rs : List Regex) (before : Option Char) (size : Nat) (best : Option Nat) :
    Text → Option Nat
  | [] =>
      if (rs.flatMap (·.moves before none)).contains .accept then some size else best
  | c :: t =>
      let ms := rs.flatMap (·.moves before (some c))
      let best := if ms.contains .accept then some size else best
      match ((ms.takeWhile (· != .accept)).filterMap (Move.rest? c)).eraseDups with
      | [] => best
      | rs => run rs (some c) (size + c.utf8Size) best t

/-- The size in bytes of the preferred match at the start of `t`, behind `before`. -/
def matchSize? (r : Regex) (before : Option Char) (t : Text) : Option Nat :=
  run [r] before 0 none t

/-! ## Building expressions -/

def char (c : Char) : Regex :=
  .set (.single c)

/-- The expressions one after another. -/
def seq : List Regex → Regex
  | [] => .empty
  | [r] => r
  | r :: rs => .cat r (seq rs)

/-- The text itself. -/
def literal (t : Text) : Regex :=
  seq (t.map char)

/-- Whether every match reads something, judged by the shape alone. -/
def alwaysReads : Regex → Bool
  | .empty => false
  | .set _ => true
  | .anchor _ => false
  | .cat r s => r.alwaysReads || s.alwaysReads
  | .alt r s => r.alwaysReads && s.alwaysReads
  | .opt _ _ => false
  | .plus _ r => r.alwaysReads
  | .loop _ _ => false

/-- Any number of rounds. -/
def star (greedy : Bool) (r : Regex) : Regex :=
  if r.alwaysReads then .loop greedy r else .opt greedy (.plus greedy r)

/-- Exactly `n` rounds in front of `tail`. -/
def repeatBefore (r tail : Regex) : Nat → Regex
  | 0 => tail
  | n + 1 => .cat r (repeatBefore r tail n)

/-- At most `n` further rounds. -/
def upTo (greedy : Bool) (r : Regex) : Nat → Regex
  | 0 => .empty
  | 1 => .opt greedy r
  | n + 1 => .opt greedy (.cat r (upTo greedy r n))

/-- From `min` to `max` rounds, or at least `min` without a `max`. -/
def repeated (greedy : Bool) (min : Nat) (max : Option Nat) (r : Regex) : Regex :=
  match max with
  | some max => repeatBefore r (upTo greedy r (max - min)) min
  | none =>
      match min with
      | 0 => star greedy r
      | n + 1 => repeatBefore r (.plus greedy r) n

end Regex
end StructuralRules
