import StructuralRules.Data.Basic
import StructuralRules.Text.Basic

/-!
# JSON text

Lists and tables are spread over lines, two spaces for each level. Only quotes,
backslashes and control characters are escaped.
-/

set_option autoImplicit false

namespace StructuralRules

namespace Data

/-- A hexadecimal digit in lower case. -/
def hexDigit (n : Nat) : Char :=
  if n < 10 then Char.ofNat ('0'.toNat + n) else Char.ofNat ('a'.toNat + (n - 10))

/-- A character inside a quoted string. -/
def escapeChar (c : Char) : Text :=
  if c = '"' then ['\\', '"']
  else if c = '\\' then ['\\', '\\']
  else if c = '\n' then ['\\', 'n']
  else if c = '\r' then ['\\', 'r']
  else if c = '\t' then ['\\', 't']
  else if c = '\x08' then ['\\', 'b']
  else if c = '\x0c' then ['\\', 'f']
  else if c.toNat < 32 then ['\\', 'u', '0', '0', hexDigit (c.toNat / 16), hexDigit (c.toNat % 16)]
  else [c]

def quoted (s : String) : Text :=
  ['"'] ++ s.toList.flatMap escapeChar ++ ['"']

/-- A line break and the indentation of a level. -/
def breakTo (level : Nat) : Text :=
  '\n' :: List.replicate (2 * level) ' '

mutual

/-- The text of a tree that starts at an indentation level. -/
def jsonAt (level : Nat) : Data → Text
  | .null => "null".toList
  | .bool b => (if b then "true" else "false").toList
  | .int n => (toString n).toList
  | .float l => l.toList
  | .moment l => quoted l
  | .string s => quoted s
  | .list [] => ['[', ']']
  | .list (d :: ds) =>
      ['['] ++ breakTo (level + 1) ++ jsonAt (level + 1) d ++ jsonItems (level + 1) ds ++
        breakTo level ++ [']']
  | .table [] => ['{', '}']
  | .table ((k, d) :: es) =>
      ['{'] ++ breakTo (level + 1) ++ quoted k ++ [':', ' '] ++ jsonAt (level + 1) d ++
        jsonEntries (level + 1) es ++ breakTo level ++ ['}']

def jsonItems (level : Nat) : List Data → Text
  | [] => []
  | d :: ds => [','] ++ breakTo level ++ jsonAt level d ++ jsonItems level ds

def jsonEntries (level : Nat) : List (String × Data) → Text
  | [] => []
  | (k, d) :: es =>
      [','] ++ breakTo level ++ quoted k ++ [':', ' '] ++ jsonAt level d ++ jsonEntries level es

end

/-- The text of a tree. -/
def json (d : Data) : String :=
  String.ofList (jsonAt 0 d)

end Data
end StructuralRules
