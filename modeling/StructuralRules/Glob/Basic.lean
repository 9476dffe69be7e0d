import StructuralRules.Text.Utf8

/-!
# Globs

A glob is matched against the bytes of a path. Stars and question marks match
any byte, separators included. Two stars that fill a whole path component match
any number of components.
-/

set_option autoImplicit false

namespace StructuralRules

/-- One piece of a glob. -/
inductive GlobToken where
  | literal (c : Char)
  /-- One byte. -/
  | any
  /-- Any bytes. -/
  | star
  /-- Two stars and a separator at the start: any leading components. -/
  | leading
  /-- A separator and two stars at the end: anything below. -/
  | trailing
  /-- Two stars between separators: any components between. -/
  | between
  /-- One byte in, or not in, the ranges. -/
  | set (negated : Bool) (ranges : List (Char × Char))
  | alternates (branches : List (List GlobToken))

/-- Why a glob is refused. -/
inductive GlobError where
  | unclosedClass
  | badRange
  | unopenedAlternates
  | unclosedAlternates
  | danglingEscape
  deriving DecidableEq, Repr

namespace GlobToken

def isLiteral : GlobToken → Bool
  | .literal _ => true
  | _ => false

end GlobToken

namespace Glob

/-! ## Reading -/

/-- The ranges of a class up to its closing bracket, reversed. `first` holds until an item is
read, and `pending` after a hyphen that may make a range. -/
def readClass (first pending : Bool) (ranges : List (Char × Char)) :
    Text → Except GlobError (List (Char × Char) × Text)
  | [] => .error .unclosedClass
  | c :: t =>
      let item : Except GlobError (List (Char × Char)) :=
        match pending, ranges with
        | true, (lo, _) :: rest => if c < lo then .error .badRange else .ok ((lo, c) :: rest)
        | _, _ => .ok ((c, c) :: ranges)
      if c = ']' ∧ ¬first then
        .ok (if pending then ('-', '-') :: ranges else ranges, t)
      else if c = ']' then readClass false pending ((']', ']') :: ranges) t
      else if c = '-' ∧ ¬first ∧ ¬pending then readClass false true ranges t
      else
        match item with
        | .ok ranges => readClass false false ranges t
        | .error e => .error e

/-- What is read so far: the tokens of the open branch and, for each open group, its finished
branches and the tokens before it. All lists are reversed. -/
structure Draft where
  tokens : List GlobToken
  groups : List (List (List GlobToken) × List GlobToken)

namespace Draft

def push (s : Draft) (k : GlobToken) : Draft :=
  { s with tokens := k :: s.tokens }

def openGroup (s : Draft) : Draft :=
  ⟨[], ([], s.tokens) :: s.groups⟩

def nextBranch (s : Draft) : Draft :=
  match s.groups with
  | [] => s.push (.literal ',')
  | (done, outer) :: groups => ⟨[], (s.tokens.reverse :: done, outer) :: groups⟩

def closeGroup (s : Draft) : Except GlobError Draft :=
  match s.groups with
  | [] => .error .unopenedAlternates
  | (done, outer) :: groups =>
      .ok ⟨.alternates (s.tokens.reverse :: done).reverse :: outer, groups⟩

/-- Two stars with `before` before them and `t` behind them, and what is left of `t`. They
stand for components when separators or the ends of the branch surround them. -/
def twoStars (s : Draft) (before : Option Char) (t : Text) : Draft × Text :=
  let plain := ((s.push .star).push .star, t)
  let inGroup := !s.groups.isEmpty
  match s.tokens with
  | [] =>
      match t with
      | [] => (s.push .leading, [])
      | '/' :: t => (s.push .leading, t)
      | _ => plain
  | last :: tokens =>
      let bounded :=
        before == some '/' || (inGroup && (before == some ',' || before == some '{'))
      let closing : Option (GlobToken × Text) :=
        match t with
        | [] => some (.trailing, [])
        | '/' :: t => some (.between, t)
        | c :: _ => if inGroup && (c == ',' || c == '}') then some (.trailing, t) else none
      match bounded, closing with
      | true, some (k, t) =>
          let k : GlobToken :=
            match last with
            | .leading => .leading
            | .trailing => .trailing
            | _ => k
          (⟨k :: tokens, s.groups⟩, t)
      | _, _ => plain

end Draft

/-- Reads a glob. `before` is the character before the rest. -/
def read : Nat → Draft → Option Char → Text → Except GlobError (List GlobToken)
  | _, s, _, [] => if s.groups.isEmpty then .ok s.tokens.reverse else .error .unclosedAlternates
  | 0, _, _, _ :: _ => .error .unclosedAlternates
  | fuel + 1, s, before, c :: t =>
      match c, t with
      | '?', _ => read fuel (s.push .any) (some c) t
      | '*', '*' :: t' =>
          let (s, rest) := s.twoStars before t'
          read fuel s (some (if rest.length < t'.length then '/' else '*')) rest
      | '*', _ => read fuel (s.push .star) (some c) t
      | '[', _ => do
          let negated := t.head? == some '!' || t.head? == some '^'
          let (ranges, rest) ← readClass true false [] (if negated then t.drop 1 else t)
          read fuel (s.push (.set negated ranges.reverse)) (some ']') rest
      | '{', _ => read fuel s.openGroup (some c) t
      | '}', _ => do read fuel (← s.closeGroup) (some c) t
      | ',', _ => read fuel s.nextBranch (some c) t
      | '\\', [] => .error .danglingEscape
      | '\\', d :: t => read fuel (s.push (.literal d)) (some d) t
      | c, _ => read fuel (s.push (.literal c)) (some c) t

/-! ## Matching -/

def separator : UInt8 := 47

/-- The bytes and all their proper suffixes. -/
def suffixes : Bytes → List Bytes
  | [] => [[]]
  | b :: t => (b :: t) :: suffixes t

/-- What follows each separator. -/
def behindSeparators : Bytes → List Bytes
  | [] => []
  | b :: t => if b = separator then t :: behindSeparators t else behindSeparators t

/-- Whether the byte is in the range. A bound of several bytes is a byte of its own for each
but the one next to the other bound. -/
def inRange (b : UInt8) (r : Char × Char) : Bool :=
  let lo := String.utf8EncodeChar r.1
  let hi := String.utf8EncodeChar r.2
  if r.1 == r.2 then lo.contains b
  else
    lo.dropLast.contains b || (hi.drop 1).contains b ||
      ((lo.getLast?.any (· ≤ b)) && (hi.head?.any (b ≤ ·)))

mutual

/-- Whether the token stands for nothing at all, as a group without a non-empty branch does. -/
def isVoid : GlobToken → Bool
  | .alternates branches => areVoidBranches branches
  | _ => false

def areVoidBranches : List (List GlobToken) → Bool
  | [] => true
  | b :: bs => areVoid b && areVoidBranches bs

def areVoid : List GlobToken → Bool
  | [] => true
  | k :: ks => isVoid k && areVoid ks

end

mutual

/-- What can be left of the bytes behind a token. An empty branch of a group does not count
beside others. -/
def restsOf : GlobToken → Bytes → List Bytes
  | .literal c, bs =>
      let code := String.utf8EncodeChar c
      if code.isPrefixOf bs then [bs.drop code.length] else []
  | .any, bs => if bs.isEmpty then [] else [bs.drop 1]
  | .star, bs => suffixes bs
  | .leading, bs => bs :: behindSeparators bs
  | .trailing, bs => if bs.head? = some separator then suffixes (bs.drop 1) else []
  | .between, bs =>
      if bs.head? = some separator then bs.drop 1 :: behindSeparators (bs.drop 1) else []
  | .set negated ranges, bs =>
      match bs with
      | [] => []
      | b :: t => if ranges.any (inRange b) != negated then [t] else []
  | .alternates branches, bs =>
      if areVoidBranches branches then [bs] else restsOfBranches branches bs

def restsOfBranches : List (List GlobToken) → Bytes → List Bytes
  | [], _ => []
  | b :: branches, bs =>
      (if areVoid b then [] else restsOfAll b [bs]) ++ restsOfBranches branches bs

def restsOfAll : List GlobToken → List Bytes → List Bytes
  | [], rests => rests
  | k :: ks, rests => restsOfAll ks ((rests.flatMap (restsOf k)).eraseDups)

end

end Glob

/-- A glob that compiled. -/
structure Glob where
  source : String
  tokens : List GlobToken

namespace Glob

def compile (source : String) : Except GlobError Glob := do
  let tokens ← read source.length ⟨[], []⟩ none source.toList
  return ⟨source, tokens⟩

/-- The pieces match all bytes of the path. -/
def covers (g : Glob) (path : Bytes) : Bool :=
  match g.tokens with
  | [.leading] => true
  | tokens => (restsOfAll tokens [path]).contains []

/-- Whether the path's final name alone decides a glob that ends in a dot. That is so unless
the glob is all literal, or literal behind one leading star, or a whole path of several
components behind leading ones. -/
def readsFinalName (tokens : List GlobToken) : Bool :=
  let endsInDot := match tokens.getLast? with
    | some (.literal '.') => true
    | _ => false
  let hasSeparator := tokens.any fun
    | .literal '/' => true
    | _ => false
  endsInDot &&
    match tokens with
    | .leading :: .star :: rest => !rest.all (·.isLiteral) || rest.length == 1
    | .leading :: rest => !rest.all (·.isLiteral) || !hasSeparator
    | .star :: rest => !rest.all (·.isLiteral) || rest.length == 1
    | rest => !rest.all (·.isLiteral)

/-- The path's last component names the parent of the one before. -/
def endsInParent (path : Bytes) : Bool :=
  match path.reverse with
  | 46 :: 46 :: above => above.head?.all (· == separator)
  | _ => false

/-- Whether the glob matches the path. A path that ends in two dots has no final name. -/
def isMatch (g : Glob) (path : String) : Bool :=
  let bytes := Text.toBytes path.toList
  !(readsFinalName g.tokens && endsInParent bytes) && g.covers bytes

end Glob
end StructuralRules
