import StructuralRules.Pattern.Ast

/-!
# Reading patterns

A pattern is read from left to right. The reader keeps what is left of the
text, whether blanks and comments are passed over, and the group names seen so
far. Every round of a loop reads at least one character, so the length of the
pattern bounds the number of rounds.
-/

set_option autoImplicit false

namespace StructuralRules.Pattern

/-- Where the reader stands. -/
structure Cursor where
  rest : Text
  /-- Blanks and comments are passed over. -/
  verbose : Bool
  names : List Text

abbrev ReadM := StateT Cursor (Except PatternError)

/-- Passes over blanks, and over comments from a hash sign to the line's end. -/
def skipVerbose (inComment : Bool) : Text → Text
  | [] => []
  | c :: t =>
      if inComment then skipVerbose (c != '\n') t
      else if Text.isBlank c then skipVerbose false t
      else if c == '#' then skipVerbose true t
      else c :: t

def peek : ReadM (Option Char) := do
  return (← get).rest.head?

/-- The character behind the current one. -/
def peekSecond : ReadM (Option Char) := do
  return ((← get).rest.drop 1).head?

def skipSpace : ReadM Unit :=
  modify fun s => if s.verbose then { s with rest := skipVerbose false s.rest } else s

/-- The next character behind the current one that counts. -/
def peekSpaced : ReadM (Option Char) := do
  let s ← get
  let t := s.rest.drop 1
  return (if s.verbose then skipVerbose false t else t).head?

def bump : ReadM Unit :=
  modify fun s => { s with rest := s.rest.drop 1 }

def bumpSpaced : ReadM Unit := do
  bump
  skipSpace

/-- The current character, or the given error at the end. -/
def current (e : PatternError) : ReadM Char := do
  match ← peek with
  | some c => return c
  | none => throw e

/-- Passes over `t` if it stands here. -/
def bumpIf (t : String) : ReadM Bool := do
  let s ← get
  if t.toList.isPrefixOf s.rest then
    set { s with rest := s.rest.drop t.length }
    return true
  else
    return false

/-! ## Escapes -/

/-- Characters with a meaning of their own, which a backslash takes away. -/
def isMeta (c : Char) : Bool :=
  "\\.+*?()|[]\x7b\x7d^$#&-~".toList.contains c

/-- Characters that a backslash may stand before without effect. -/
def isEscapable (c : Char) : Bool :=
  isMeta c || (c.toNat < 128 && !c.isAlphanum && c != '<' && c != '>')

def hexValue? (c : Char) : Option Nat :=
  if c.isDigit then some (c.toNat - '0'.toNat)
  else if 'a' ≤ c && c ≤ 'f' then some (c.toNat - 'a'.toNat + 10)
  else if 'A' ≤ c && c ≤ 'F' then some (c.toNat - 'A'.toNat + 10)
  else none

/-- The scalar value with the given hexadecimal digits. -/
def scalar? (digits : List Nat) : Option Char :=
  let n := digits.foldl (fun n d => n * 16 + d) 0
  if h : n.isValidChar then some (Char.ofNatAux n h) else none

/-- Exactly `n` hexadecimal digits. -/
def readHexDigits : Nat → ReadM (List Nat)
  | 0 => return []
  | n + 1 => do
      let c ← current .badEscape
      match hexValue? c with
      | none => throw .badCodePoint
      | some d =>
          bumpSpaced
          return d :: (← readHexDigits n)

/-- Hexadecimal digits up to a closing brace. -/
def readHexBraced : Nat → ReadM (List Nat)
  | 0 => throw .badEscape
  | fuel + 1 => do
      let c ← current .badEscape
      if c == '}' then
        bumpSpaced
        return []
      match hexValue? c with
      | none => throw .badCodePoint
      | some d =>
          bumpSpaced
          return d :: (← readHexBraced fuel)

/-- The code point behind the letter `kind`, which tells how many digits it has without braces. -/
def readHex (kind : Char) : ReadM (Char × Bool) := do
  bumpSpaced
  let c ← current .badEscape
  let braced := c == '{'
  let digits ←
    if braced then do
      bumpSpaced
      readHexBraced ((← get).rest.length + 1)
    else readHexDigits (if kind == 'x' then 2 else if kind == 'u' then 4 else 8)
  if digits.isEmpty then throw .badCodePoint
  match scalar? digits with
  | some c => return (c, kind == 'x' && !braced)
  | none => throw .badCodePoint

/-- The name between the braces of a property. -/
def readBraced : Nat → ReadM Text
  | 0 => throw .badEscape
  | fuel + 1 => do
      let c ← current .badEscape
      if c == '}' then
        bump
        return []
      bumpSpaced
      return c :: (← readBraced fuel)

/-- A name, or a name and a value with `=`, `:` or `!=` between them. -/
def readProperty (name : String) : Except PatternError (Property × Bool) :=
  let valued (sep : String) (negated : Bool) : Option (Option (Property × Bool)) :=
    match name.splitOn sep with
    | n :: v :: more =>
        some ((Property.valued? n (sep.intercalate (v :: more))).map fun p => (p, negated))
    | _ => none
  let found :=
    ((valued "!=" true).or ((valued ":" false).or (valued "=" false))).getD
      ((Property.named? name).map fun p => (p, false))
  match found with
  | some r => .ok r
  | none => .error .unknownProperty

def readPropertyClass : ReadM SetAst := do
  let negated := (← peek) == some 'P'
  bumpSpaced
  let c ← current .badEscape
  let name ←
    if c == '{' then do
      bumpSpaced
      readBraced ((← get).rest.length + 1)
    else if c == '\\' then throw .unknownProperty
    else do
      bumpSpaced
      pure [c]
  let (p, flipped) ← readProperty (String.ofList name)
  return .property p (negated != flipped)

/-- The name in a special word boundary, blanks passed over. -/
def readEdgeName : Nat → ReadM Text
  | 0 => return []
  | fuel + 1 => do
      match ← peek with
      | some c =>
          if c.isAlpha || c == '-' then
            bumpSpaced
            return c :: (← readEdgeName fuel)
          else return []
      | none => return []

/-- The word edge behind a lower case `b`. What stands in braces may also be a repetition. -/
def readWordBoundary : ReadM WordEdge := do
  if (← peek) != some '{' then return .boundary
  let start ← get
  bumpSpaced
  let c ← current .badWordBoundary
  if !(c.isAlpha || c == '-') then
    set start
    return .boundary
  let name ← readEdgeName ((← get).rest.length + 1)
  if (← peek) != some '}' then throw .badWordBoundary
  bump
  match String.ofList name with
  | "start" => return .start
  | "end" => return .stop
  | "start-half" => return .startHalf
  | "end-half" => return .stopHalf
  | _ => throw .badWordBoundary

/-- What a backslash introduces. -/
def readEscape : ReadM Ast := do
  bump
  let c ← current .badEscape
  if c.isDigit then throw .backreference
  match c with
  | 'x' | 'u' | 'U' =>
      let (c, byte) ← readHex c
      return .literal c byte
  | 'p' | 'P' => return .set (← readPropertyClass)
  | _ =>
      bump
      if isEscapable c then return .literal c false
      match c with
      | 'd' => return .set (.short .digit false)
      | 'D' => return .set (.short .digit true)
      | 's' => return .set (.short .space false)
      | 'S' => return .set (.short .space true)
      | 'w' => return .set (.short .word false)
      | 'W' => return .set (.short .word true)
      | 'a' => return .literal '\x07' false
      | 'f' => return .literal '\x0c' false
      | 't' => return .literal '\t' false
      | 'n' => return .literal '\n' false
      | 'r' => return .literal '\r' false
      | 'v' => return .literal '\x0b' false
      | 'A' => return .anchor .textStart
      | 'z' => return .anchor .textEnd
      | 'b' => return .word (← readWordBoundary)
      | 'B' => return .word .noBoundary
      | '<' => return .word .start
      | '>' => return .word .stop
      | _ => throw .badEscape

/-! ## Bracketed classes -/

/-- The ASCII classes by name. -/
def asciiClass? (name : String) : Option CharSet :=
  let ranges : Option (List (Char × Char)) :=
    match name with
    | "alnum" => some [('0', '9'), ('A', 'Z'), ('a', 'z')]
    | "alpha" => some [('A', 'Z'), ('a', 'z')]
    | "ascii" => some [('\x00', '\x7f')]
    | "blank" => some [('\t', '\t'), (' ', ' ')]
    | "cntrl" => some [('\x00', '\x1f'), ('\x7f', '\x7f')]
    | "digit" => some [('0', '9')]
    | "graph" => some [('!', '~')]
    | "lower" => some [('a', 'z')]
    | "print" => some [(' ', '~')]
    | "punct" => some [('!', '/'), (':', '@'), ('[', '\x60'), ('\x7b', '~')]
    | "space" => some [('\t', '\r'), (' ', ' ')]
    | "upper" => some [('A', 'Z')]
    | "word" => some [('0', '9'), ('A', 'Z'), ('_', '_'), ('a', 'z')]
    | "xdigit" => some [('0', '9'), ('A', 'F'), ('a', 'f')]
    | _ => none
  ranges.map fun rs => CharSet.ofRanges (rs.map fun (lo, hi) => (lo.toNat, hi.toNat))

/-- An ASCII class between `[:` and `:]`; anything else is left where it is. -/
def tryAsciiClass : ReadM (Option SetAst) := do
  let s ← get
  match s.rest with
  | '[' :: ':' :: t =>
      let (negated, t) := if t.head? == some '^' then (true, t.drop 1) else (false, t)
      let name := t.takeWhile (· != ':')
      match t.dropWhile (· != ':') with
      | ':' :: ']' :: t =>
          match asciiClass? (String.ofList name) with
          | some k =>
              set { s with rest := t }
              return some (.named k negated)
          | none => return none
      | _ => return none
  | _ => return none

/-- One item: an escape, or a character that stands for itself. -/
def readSetItem : ReadM Ast := do
  match ← peek with
  | some '\\' => readEscape
  | some c =>
      bump
      return .literal c false
  | none => throw .unclosedClass

/-- An item that is no end of a range. -/
def asSetItem : Ast → Except PatternError SetAst
  | .literal c byte => .ok (.literal c byte)
  | .set s => .ok s
  | _ => .error .badClassItem

def asRangeEnd : Ast → Except PatternError Char
  | .literal c _ => .ok c
  | _ => .error .badClassRange

/-- A range, or an item alone when no range follows. -/
def readSetRange : ReadM SetAst := do
  let lo ← readSetItem
  skipSpace
  let c ← current .unclosedClass
  let ahead ← peekSpaced
  if c != '-' || ahead == some ']' || ahead == some '-' then
    return ← asSetItem lo
  bumpSpaced
  let hi ← readSetItem
  let lo ← asRangeEnd lo
  let hi ← asRangeEnd hi
  if hi < lo then throw .badClassRange
  return .range lo hi

/-- Hyphens at the start of a class. -/
def readHyphens : Nat → ReadM (List SetAst)
  | 0 => return []
  | fuel + 1 => do
      let c ← current .unclosedClass
      if c == '-' then
        bumpSpaced
        return .literal '-' false :: (← readHyphens fuel)
      else return []

/-- Reads up to the closing bracket. `items` are the items behind the last operation,
reversed, and `left` is what stands before that operation. -/
def readSetBody : Nat → List SetAst → Option (SetOp × SetAst) → ReadM SetAst
  | 0, _, _ => throw .unclosedClass
  | fuel + 1, items, left => do
      skipSpace
      let c ← current .unclosedClass
      let ahead ← peekSecond
      let close : SetAst :=
        let last := SetAst.ofItems items.reverse
        match left with
        | some (k, l) => .op k l last
        | none => last
      let operator (k : SetOp) : ReadM SetAst := do
        bump
        bump
        readSetBody fuel [] (some (k, close))
      if c == '[' then
        match ← tryAsciiClass with
        | some k => readSetBody fuel (k :: items) left
        | none =>
            bumpSpaced
            let negated := (← current .unclosedClass) == '^'
            if negated then bumpSpaced
            let hyphens ← readHyphens ((← get).rest.length + 1)
            let first ←
              if hyphens.isEmpty && (← current .unclosedClass) == ']' then do
                bumpSpaced
                let _ ← current .unclosedClass
                pure [SetAst.literal ']' false]
              else pure hyphens
            let body ← readSetBody fuel first.reverse none
            readSetBody fuel (.bracket negated body :: items) left
      else if c == ']' then
        bump
        return close
      else if c == '&' && ahead == some '&' then operator .inter
      else if c == '-' && ahead == some '-' then operator .diff
      else if c == '~' && ahead == some '~' then operator .symmDiff
      else
        let item ← readSetRange
        readSetBody fuel (item :: items) left

/-- A bracketed class, from its opening bracket on. -/
def readSet : ReadM SetAst := do
  bumpSpaced
  let negated := (← current .unclosedClass) == '^'
  if negated then bumpSpaced
  let hyphens ← readHyphens ((← get).rest.length + 1)
  let first ←
    if hyphens.isEmpty && (← current .unclosedClass) == ']' then do
      bumpSpaced
      let _ ← current .unclosedClass
      pure [SetAst.literal ']' false]
    else pure hyphens
  let body ← readSetBody ((← get).rest.length + 1) first.reverse none
  return .bracket negated body

/-! ## Groups and repetitions -/

def flag? : Char → Option Flag
  | 'i' => some .caseless
  | 'm' => some .multiLine
  | 's' => some .dotAll
  | 'U' => some .swapGreed
  | 'u' => some .unicode
  | 'R' => some .returns
  | 'x' => some .verbose
  | _ => none

/-- Flag letters up to a colon or a closing parenthesis, which stays. A hyphen turns the
letters behind it off; it stands once and not last, and no letter stands twice. -/
def readFlags : Nat → Bool → Bool → List FlagChange → ReadM (List FlagChange)
  | 0, _, _, _ => throw .badFlag
  | fuel + 1, off, dangling, seen => do
      let c ← current .badFlag
      if c == ':' || c == ')' then
        if dangling then throw .badFlag else return seen.reverse
      else if c == '-' then
        if off then throw .badFlag
        bump
        readFlags fuel true true seen
      else
        match flag? c with
        | none => throw .badFlag
        | some f =>
            if seen.any (·.flag == f) then throw .badFlag
            bump
            readFlags fuel off false (⟨f, !off⟩ :: seen)

def isNameChar (first : Bool) (c : Char) : Bool :=
  c == '_' ||
    if first then Unicode.isAlphabetic c
    else c == '.' || c == '[' || c == ']' || Unicode.isAlphanumeric c

/-- A group name and its closing angle bracket. -/
def readGroupName : ReadM Unit := do
  let s ← get
  let name := s.rest.takeWhile (· != '>')
  match name, s.rest.dropWhile (· != '>') with
  | c :: t, _ :: rest =>
      if !(isNameChar true c && t.all (isNameChar false)) then throw .badGroupName
      if s.names.contains name then throw .repeatedGroupName
      set { s with rest := rest, names := name :: s.names }
  | _, _ => throw .badGroupName

/-- What opens with a parenthesis: a change of flags, or a group whose contents follow. -/
inductive Opened where
  | flags (fs : List FlagChange)
  | group (fs : List FlagChange)

def readOpened : ReadM Opened := do
  bumpSpaced
  let s ← get
  if ["?=", "?!", "?<=", "?<!"].any (·.toList.isPrefixOf s.rest) then throw .lookAround
  if ← bumpIf "?P<" then
    readGroupName
    return .group []
  if ← bumpIf "?<" then
    readGroupName
    return .group []
  if ← bumpIf "?" then
    let _ ← current .unclosedGroup
    let start := (← get).rest
    let fs ← readFlags ((← get).rest.length + 1) false false []
    let closed := (← peek) == some ')'
    bump
    if closed then
      if start.head? == some ')' then throw .nothingToRepeat
      return .flags fs
    return .group fs
  return .group []

/-- Whether blanks are passed over behind the change. -/
def verboseAfter (fs : List FlagChange) (now : Bool) : Bool :=
  ((fs.find? (·.flag == .verbose)).map (·.on)).getD now

/-- Decimal digits, blanks around them passed over. -/
def readDecimalDigits : Nat → ReadM Text
  | 0 => return []
  | fuel + 1 => do
      match ← peek with
      | some c =>
          if c.isDigit then
            bumpSpaced
            return c :: (← readDecimalDigits fuel)
          else return []
      | none => return []

def skipBlanks : ReadM Unit :=
  modify fun s => { s with rest := s.rest.dropWhile Text.isBlank }

/-- A count below 2^32; `none` where no digit stands. -/
def readDecimal : ReadM (Option Nat) := do
  skipBlanks
  let digits ← readDecimalDigits ((← get).rest.length + 1)
  skipBlanks
  if digits.isEmpty then return none
  let n := digits.foldl (fun n d => n * 10 + (d.toNat - '0'.toNat)) 0
  if n < 0x100000000 then return some n else throw .badRepetition

/-- Whether the repetition just read is a reluctant one. -/
def readReluctant : ReadM Bool := do
  if (← peek) == some '?' then
    bump
    return true
  else return false

/-- A count in braces, from the opening brace on. -/
def readCounts : ReadM (Nat × Option Nat) := do
  bumpSpaced
  let _ ← current .badRepetition
  let least ← readDecimal
  let c ← current .badRepetition
  let counts ←
    if c == ',' then do
      bumpSpaced
      let c ← current .badRepetition
      if c == '}' then pure (least, none)
      else do
        if least.isNone then throw .badRepetition
        match ← readDecimal with
        | some most => pure (least, some most)
        | none => throw .badRepetition
    else pure (least, least)
  if (← peek) != some '}' then throw .badRepetition
  bumpSpaced
  match counts with
  | (some least, most) =>
      if most.any (· < least) then throw .badRepetition
      return (least, most)
  | _ => throw .badRepetition

/-- What a repetition applies to. -/
def repeatable : Ast → Bool
  | .empty | .flags _ => false
  | _ => true

/-- Reads a sequence up to a closing parenthesis or the end. `branches` and `items` are
what was read so far, reversed. -/
def readBranches : Nat → List Ast → List Ast → ReadM Ast
  | 0, _, _ => throw .tooDeep
  | fuel + 1, branches, items => do
      skipSpace
      let repetition (least : Nat) (most : Option Nat) : ReadM Ast := do
        let reluctant ← readReluctant
        match items with
        | r :: items =>
            if repeatable r then
              readBranches fuel branches (.repetition least most (!reluctant) r :: items)
            else throw .nothingToRepeat
        | [] => throw .nothingToRepeat
      match ← peek with
      | none | some ')' =>
          return Ast.ofBranches ((Ast.ofItems items.reverse :: branches).reverse)
      | some '|' =>
          bump
          readBranches fuel (Ast.ofItems items.reverse :: branches) []
      | some '(' =>
          match ← readOpened with
          | .flags fs =>
              modify fun s => { s with verbose := verboseAfter fs s.verbose }
              readBranches fuel branches (.flags fs :: items)
          | .group fs =>
              let outer := (← get).verbose
              modify fun s => { s with verbose := verboseAfter fs s.verbose }
              let body ← readBranches fuel [] []
              if (← peek) != some ')' then throw .unclosedGroup
              bump
              modify fun s => { s with verbose := outer }
              readBranches fuel branches (.group fs body :: items)
      | some '[' =>
          let s ← readSet
          readBranches fuel branches (.set s :: items)
      | some '?' =>
          bump
          repetition 0 (some 1)
      | some '*' =>
          bump
          repetition 0 none
      | some '+' =>
          bump
          repetition 1 none
      | some '{' =>
          if items.isEmpty then throw .nothingToRepeat
          let (least, most) ← readCounts
          repetition least most
      | some '\\' =>
          let r ← readEscape
          readBranches fuel branches (r :: items)
      | some c =>
          bump
          let r :=
            match c with
            | '.' => Ast.dot
            | '^' => Ast.caret
            | '$' => Ast.dollar
            | c => Ast.literal c false
          readBranches fuel branches (r :: items)

/-- Reads a whole pattern. -/
def readAst (source : Text) : Except PatternError Ast := do
  let (ast, s) ← (readBranches (source.length + 1) [] []).run ⟨source, false, []⟩
  if !s.rest.isEmpty then throw .unopenedGroup
  if Ast.depthLimit < ast.depth then throw .tooDeep
  return ast

end StructuralRules.Pattern
