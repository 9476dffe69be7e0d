import StructuralRules.Data.Basic
import StructuralRules.Text.Basic

/-!
# TOML scalars

Strings, numbers and moments. A reader takes the text to what it read and the
rest, and `none` is a text that is refused.
-/

set_option autoImplicit false

namespace StructuralRules.Toml

/-- Space and tab. -/
def isSpace (c : Char) : Bool :=
  c == ' ' || c == '\t'

/-- The control characters that no text may hold. A tab is not one. -/
def isControl (c : Char) : Bool :=
  (c.toNat < 32 && c != '\t') || c.toNat == 127

def hexValue? (c : Char) : Option Nat :=
  if c.isDigit then some (c.toNat - '0'.toNat)
  else if 'a' ≤ c && c ≤ 'f' then some (c.toNat - 'a'.toNat + 10)
  else if 'A' ≤ c && c ≤ 'F' then some (c.toNat - 'A'.toNat + 10)
  else none

/-- The number that digits in a base stand for. -/
def numberOf (base : Nat) (digits : List Nat) : Nat :=
  digits.foldl (fun n d => n * base + d) 0

/-- The character that hexadecimal digits stand for. -/
def scalar? (digits : Text) : Option Char := do
  let n := numberOf 16 (← digits.mapM hexValue?)
  if n < 0xD800 || (0xE000 ≤ n && n ≤ 0x10FFFF) then some (Char.ofNat n) else none

/-! ## Strings -/

/-- The character that a letter behind a backslash stands for. -/
def escape? : Char → Option Char
  | 'b' => some '\x08'
  | 't' => some '\t'
  | 'n' => some '\n'
  | 'f' => some '\x0c'
  | 'r' => some '\r'
  | 'e' => some '\x1b'
  | '"' => some '"'
  | '\\' => some '\\'
  | _ => none

/-- How many hexadecimal digits follow a letter behind a backslash. -/
def escapeWidth? : Char → Option Nat
  | 'x' => some 2
  | 'u' => some 4
  | 'U' => some 8
  | _ => none

/-- What stands behind a backslash: the character, and how many characters name it. -/
def readEscape : Text → Option (Char × Nat)
  | [] => none
  | c :: t =>
      match escapeWidth? c with
      | some n => do
          if (t.take n).length < n then none
          return (← scalar? (t.take n), n + 1)
      | none => do return (← escape? c, 1)

/-- A string up to its closing quote; `skip` characters have been read already. -/
def readBasic (skip : Nat) : Text → Option (Text × Text)
  | [] => none
  | c :: t =>
      match skip with
      | n + 1 => readBasic n t
      | 0 =>
          if c = '"' then some ([], t)
          else if c = '\\' then do
            let (d, n) ← readEscape t
            let (s, rest) ← readBasic n t
            return (d :: s, rest)
          else if isControl c then none
          else do
            let (s, rest) ← readBasic 0 t
            return (c :: s, rest)

/-- A string without escapes up to its closing quote. -/
def readLiteral : Text → Option (Text × Text)
  | [] => none
  | c :: t =>
      if c = '\'' then some ([], t)
      else if isControl c then none
      else do
        let (s, rest) ← readLiteral t
        return (c :: s, rest)

/-- Whether a carriage return and a line feed, or a line feed, come first. -/
def startsWithNewline : Text → Bool
  | '\n' :: _ => true
  | '\r' :: '\n' :: _ => true
  | _ => false

/-- Without the line break at the start. -/
def dropNewline : Text → Text
  | '\n' :: t => t
  | '\r' :: '\n' :: t => t
  | t => t

/-- What closes a string of several lines: three quotes, behind at most two that belong to
the string. -/
def closeMultiline (quote : Char) (t : Text) : Option (Option (Text × Text)) :=
  let quotes := t.takeWhile (· == quote)
  if quotes.length < 3 then none
  else if quotes.length ≤ 5 then some (some (quotes.drop 3, t.drop quotes.length))
  else some none

/-- How many characters a backslash at the end of a line takes with it. -/
def continuation? (t : Text) : Option Nat :=
  if startsWithNewline (t.dropWhile isSpace) then
    some (t.takeWhile fun c => isSpace c || c == '\n' || c == '\r').length
  else none

def readMultiBasic (skip : Nat) : Text → Option (Text × Text)
  | [] => none
  | c :: t =>
      match skip with
      | n + 1 => readMultiBasic n t
      | 0 =>
          match closeMultiline '"' (c :: t) with
          | some closed => closed
          | none =>
              if c = '\\' then
                match continuation? t with
                | some n => readMultiBasic n t
                | none => do
                    let (d, n) ← readEscape t
                    let (s, rest) ← readMultiBasic n t
                    return (d :: s, rest)
              else if isControl c && c != '\n' && !startsWithNewline (c :: t) then none
              else do
                let (s, rest) ← readMultiBasic 0 t
                return (c :: s, rest)

def readMultiLiteral : Text → Option (Text × Text)
  | [] => none
  | c :: t =>
      match closeMultiline '\'' (c :: t) with
      | some closed => closed
      | none =>
          if isControl c && c != '\n' && !startsWithNewline (c :: t) then none
          else do
            let (s, rest) ← readMultiLiteral t
            return (c :: s, rest)

/-! ## Numbers -/

/-- The digits of a number: underscores may stand between digits and nowhere else. -/
def digits? (value : Char → Option Nat) : Text → Option (List Nat)
  | [] => none
  | [c] => do return [← value c]
  | c :: '_' :: t => do return (← value c) :: (← digits? value t)
  | c :: t => do return (← value c) :: (← digits? value t)

/-- The value of a digit of a base. -/
def digit? (base : Nat) (c : Char) : Option Nat :=
  (hexValue? c).filter (· < base)

/-- Digits that do not start with a zero, or a zero alone. -/
def decimal? (t : Text) : Option Nat := do
  let ds ← digits? (digit? 10) t
  match ds with
  | 0 :: _ :: _ => none
  | _ => some (numberOf 10 ds)

/-- The sign of a number and what follows it. -/
def splitSign : Text → Int × Text
  | '+' :: t => (1, t)
  | '-' :: t => (-1, t)
  | t => (1, t)

/-- A whole number that fits into 128 bits, with or without a sign. -/
def integer? (t : Text) : Option Int := do
  let n : Int ←
    match t with
    | '0' :: 'x' :: t => (digits? (digit? 16) t).map fun ds => Int.ofNat (numberOf 16 ds)
    | '0' :: 'o' :: t => (digits? (digit? 8) t).map fun ds => Int.ofNat (numberOf 8 ds)
    | '0' :: 'b' :: t => (digits? (digit? 2) t).map fun ds => Int.ofNat (numberOf 2 ds)
    | t => (decimal? (splitSign t).2).map fun n => (splitSign t).1 * n
  if -0x80000000000000000000000000000000 ≤ n && n < 0x100000000000000000000000000000000 then
    some n
  else none

/-- Whether the text is an exponent, behind its letter. -/
def isExponent (t : Text) : Bool :=
  (digits? (digit? 10) (splitSign t).2).isSome

/-- Whether the text is a number with a fraction or an exponent, an infinity or no number. -/
def isFloat (t : Text) : Bool :=
  let t := (splitSign t).2
  let isLetter (c : Char) : Bool := c == 'e' || c == 'E'
  let mantissa := t.takeWhile (!isLetter ·)
  let exponent := t.dropWhile (!isLetter ·)
  let whole := mantissa.takeWhile (· != '.')
  let fraction := mantissa.dropWhile (· != '.')
  t == "inf".toList || t == "nan".toList ||
    ((decimal? whole).isSome &&
      (fraction.isEmpty || (digits? (digit? 10) (fraction.drop 1)).isSome) &&
      (exponent.isEmpty || isExponent (exponent.drop 1)) &&
      !(fraction.isEmpty && exponent.isEmpty))

/-! ## Moments -/

/-- Two digits that stand for a number in a range. -/
def twoDigits? (lo hi : Nat) : Text → Option Nat
  | [a, b] => do
      let n := numberOf 10 [← digit? 10 a, ← digit? 10 b]
      if lo ≤ n && n ≤ hi then some n else none
  | _ => none

def isLeap (year : Nat) : Bool :=
  year % 4 == 0 && (year % 100 != 0 || year % 400 == 0)

def daysIn (year month : Nat) : Nat :=
  if month == 2 then (if isLeap year then 29 else 28)
  else if month == 4 || month == 6 || month == 9 || month == 11 then 30
  else 31

def isDate (t : Text) : Bool :=
  match Text.splitBy (· == '-') t with
  | [y, m, d] =>
      match y.mapM (digit? 10), twoDigits? 1 12 m with
      | some ds, some month =>
          ds.length == 4 && (twoDigits? 1 (daysIn (numberOf 10 ds) month) d).isSome
      | _, _ => false
  | _ => false

/-- A time of day. Seconds may be left out, and may have a fraction. -/
def isTime (t : Text) : Bool :=
  match Text.splitBy (· == ':') t with
  | [h, m] => (twoDigits? 0 23 h).isSome && (twoDigits? 0 59 m).isSome
  | [h, m, s] =>
      let fraction := s.drop 2
      (twoDigits? 0 23 h).isSome && (twoDigits? 0 59 m).isSome &&
        (twoDigits? 0 60 (s.take 2)).isSome &&
        (fraction.isEmpty ||
          (fraction.head? == some '.' && 1 < fraction.length && (fraction.drop 1).all Char.isDigit))
  | _ => false

/-- A time of day with an optional offset. -/
def isZonedTime (t : Text) : Bool :=
  match t.getLast? with
  | some 'Z' | some 'z' => isTime t.dropLast
  | _ =>
      let isSign (c : Char) : Bool := c == '+' || c == '-'
      let time := t.takeWhile (!isSign ·)
      let offset := (t.dropWhile (!isSign ·)).drop 1
      isTime time &&
        (time.length == t.length ||
          match Text.splitBy (· == ':') offset with
          | [h, m] => (twoDigits? 0 23 h).isSome && (twoDigits? 0 59 m).isSome
          | _ => false)

def isMoment (t : Text) : Bool :=
  let date := t.take 10
  match t.drop 10 with
  | [] => isDate t || isTime t
  | c :: time =>
      isTime t || (isDate date && (c == 'T' || c == 't' || c == ' ') && isZonedTime time)

/-! ## Bare values -/

/-- The characters of values that have no quotes and brackets. -/
def isBareValueChar (c : Char) : Bool :=
  c.isAlphanum || c == '_' || c == '+' || c == '-' || c == '.' || c == ':'

/-- A run of such characters. A date may go on behind one space with a time. -/
def splitBareValue (t : Text) : Text × Text :=
  let run := t.takeWhile isBareValueChar
  match t.drop run.length with
  | ' ' :: c :: rest =>
      if isDate run && c.isDigit then
        let more := (c :: rest).takeWhile isBareValueChar
        (run ++ ' ' :: more, (c :: rest).drop more.length)
      else (run, ' ' :: c :: rest)
  | rest => (run, rest)

def bareValue? (t : Text) : Option Data :=
  if t == "true".toList then some (.bool true)
  else if t == "false".toList then some (.bool false)
  else
    match integer? t with
    | some n => some (.int n)
    | none =>
        if isFloat t then some (.float (String.ofList t))
        else if isMoment t then some (.moment (String.ofList t))
        else none

end StructuralRules.Toml
