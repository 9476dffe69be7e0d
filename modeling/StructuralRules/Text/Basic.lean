/-!
# Source text and byte offsets

A text is a list of characters. Positions in it are counted in bytes of its
UTF-8 form, because blanking a character keeps the number of bytes and not the
number of characters. An offset that falls inside a character cuts nothing:
`drop?`, `take?` and `slice?` answer `none` there.
-/

namespace StructuralRules

/-- Source text, or a piece of it. -/
abbrev Text := List Char

namespace Text

/-- The characters with the Unicode property White_Space. -/
def isBlank (c : Char) : Bool :=
  let n := c.toNat
  (9 ≤ n && n ≤ 13) || n == 0x20 || n == 0x85 || n == 0xA0 || n == 0x1680 ||
    (0x2000 ≤ n && n ≤ 0x200A) || n == 0x2028 || n == 0x2029 || n == 0x202F ||
    n == 0x205F || n == 0x3000

/-- Space, tab, line feed, form feed and carriage return; a vertical tab is not one. -/
def isAsciiBlank (c : Char) : Bool :=
  c == ' ' || c == '\t' || c == '\n' || c == '\x0c' || c == '\r'

/-- The characters of C identifiers. -/
def isIdentChar (c : Char) : Bool :=
  c.isAlphanum || c == '_'

/-- A letter or underscore, then letters, digits and underscores. -/
def isIdentifier : Text → Bool
  | [] => false
  | c :: t => (c.isAlpha || c == '_') && t.all isIdentChar

/-! ## Bytes -/

/-- Number of bytes of the UTF-8 form. -/
def byteLength : Text → Nat
  | [] => 0
  | c :: t => c.utf8Size + byteLength t

/-- What follows the first `n` bytes. -/
def drop? : Text → Nat → Option Text
  | t, 0 => some t
  | [], _ + 1 => none
  | c :: t, n + 1 => if c.utf8Size ≤ n + 1 then drop? t (n + 1 - c.utf8Size) else none

/-- The first `n` bytes. -/
def take? : Text → Nat → Option Text
  | _, 0 => some []
  | [], _ + 1 => none
  | c :: t, n + 1 =>
      if c.utf8Size ≤ n + 1 then (take? t (n + 1 - c.utf8Size)).map (c :: ·) else none

/-- The bytes from offset `a` up to offset `b`. -/
def slice? (t : Text) (a b : Nat) : Option Text :=
  if a ≤ b then (drop? t a).bind (take? · (b - a)) else none

/-- `slice?` with an empty answer for a cut that is no cut. -/
def slice (t : Text) (a b : Nat) : Text :=
  (slice? t a b).getD []

/-- Offset of the first character that satisfies `p`. -/
def offsetOf? (p : Char → Bool) : Text → Option Nat
  | [] => none
  | c :: t => if p c then some 0 else (offsetOf? p t).map (c.utf8Size + ·)

/-- Number of line feeds. -/
def newlines (t : Text) : Nat :=
  t.count '\n'

/-! ## Lines -/

/-- The pieces between line feeds. A final line feed opens no further piece. -/
def pieces : Text → List Text
  | [] => []
  | c :: t =>
      if c = '\n' then [] :: pieces t
      else
        match pieces t with
        | [] => [[c]]
        | p :: ps => (c :: p) :: ps

/-- Without the carriage returns at its end. -/
def dropReturns : Text → Text
  | [] => []
  | c :: t =>
      match dropReturns t with
      | [] => if c = '\r' then [] else [c]
      | d :: r => c :: d :: r

/-- The lines of a file: the pieces, each without the carriage returns at its end. -/
def lines (t : Text) : List Text :=
  (pieces t).map dropReturns

/-- The rows of a body. A row ends in a line feed or in a carriage return and a
line feed; any other carriage return belongs to its row. -/
def rows : Text → List Text
  | [] => []
  | '\n' :: t => [] :: rows t
  | '\r' :: '\n' :: t => [] :: rows t
  | c :: t =>
      match rows t with
      | [] => [[c]]
      | p :: ps => (c :: p) :: ps

/-! ## Trimming, cutting and searching -/

def trimStart (t : Text) : Text :=
  t.dropWhile isBlank

def trimEnd (t : Text) : Text :=
  (t.reverse.dropWhile isBlank).reverse

def trim (t : Text) : Text :=
  trimEnd (trimStart t)

/-- The pieces between the characters that satisfy `p`, empty ones included. -/
def splitBy (p : Char → Bool) : Text → List Text
  | [] => [[]]
  | c :: t =>
      if p c then [] :: splitBy p t
      else
        match splitBy p t with
        | [] => [[c]]
        | q :: qs => (c :: q) :: qs

/-- The words between blanks. -/
def words (t : Text) : List Text :=
  (splitBy isBlank t).filter (!·.isEmpty)

/-- The runs between the characters that belong to no identifier. -/
def tokens (t : Text) : List Text :=
  (splitBy (!isIdentChar ·) t).filter (!·.isEmpty)

/-- The words joined by one space each. -/
def unwords (ws : List Text) : Text :=
  [' '].intercalate ws

/-- Without any blank. -/
def squeeze (t : Text) : Text :=
  t.filter (!isBlank ·)

/-- Whether `needle` occurs in the text. -/
def contains (needle : Text) : Text → Bool
  | [] => needle.isEmpty
  | c :: t => needle.isPrefixOf (c :: t) || contains needle t

end Text
end StructuralRules
