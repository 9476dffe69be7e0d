import StructuralRules.Source.Argument
import StructuralRules.Source.LineClass

/-!
# Members of structs and enums

The members are read row by row from the masked text between the braces. Rows
that are comments or blank are passed over; excused rows still declare members.
Only declarations of the form type, name, optional array are read as fields.
-/

set_option autoImplicit false

namespace StructuralRules

/-- A cut of the text inside a character: the offset, the character and where it starts, and
the text. -/
structure SplitCharacter where
  offset : Nat
  char : Char
  start : Nat
  text : Text
  deriving DecidableEq, Repr

/-- One parsed struct member. -/
structure Field where
  /-- The words of the type, joined by single spaces. -/
  type : Text
  name : Text
  /-- The array part, from its first bracket on. -/
  array : Option Text
  /-- The declaration as it stands in the masked text, trimmed. -/
  declaration : Text
  line : Nat
  deriving DecidableEq, Repr

namespace Field

/-- Whether the type is the expected one, all blanks aside. -/
def typeMatches (f : Field) (expected : Text) : Bool :=
  Text.squeeze f.type == Text.squeeze expected

/-- What may not stand in a declaration. -/
def refused : List Char :=
  ['(', ')', ',', ':', '=', '{', '}']

/-- The last character that is no part of an identifier: its offset and itself. -/
def lastOther (off : Nat) (found : Option (Nat × Char)) : Text → Option (Nat × Char)
  | [] => found
  | c :: t =>
      lastOther (off + c.utf8Size) (if Text.isIdentChar c then found else some (off, c)) t

/-- Type and name. They part one byte behind the start of the last character that is no part
of an identifier, which cuts that character apart when it is longer. -/
def typeAndName (head : Text) : Except SplitCharacter (Text × Text) :=
  match lastOther 0 none head with
  | none => .ok ([], head)
  | some (start, c) =>
      match Text.take? head (start + 1), Text.drop? head (start + 1) with
      | some type, some name => .ok (type, name)
      | _, _ => .error ⟨start + 1, c, start, head⟩

/-- The field that a trimmed declaration declares, if it is one that is read. -/
def parse (declaration : Text) (line : Nat) : Except SplitCharacter (Option Field) :=
  match declaration.getLast? with
  | some ';' =>
      let decl := Text.trimEnd declaration.dropLast
      if decl.any refused.contains then .ok none
      else do
        let head := decl.takeWhile (· != '[')
        let array := decl.dropWhile (· != '[')
        let (type, name) ← typeAndName (if array.isEmpty then head else Text.trimEnd head)
        let type := Text.unwords (Text.words type)
        if Text.isIdentifier name && type.any Char.isAlpha then
          return some
            ⟨type, name, if array.isEmpty then none else some (Text.trim array), declaration, line⟩
        else return none
  | _ => .ok none

/-- The pieces of a row, each through its semicolon. -/
def declarations : Text → List Text
  | [] => []
  | c :: t =>
      if c = ';' then [c] :: declarations t
      else
        match declarations t with
        | [] => [[c]]
        | d :: ds => (c :: d) :: ds

/-- The fields of one row. -/
def ofRow (row : Text) (line : Nat) : Except SplitCharacter (List Field) := do
  let fields ← (declarations row).mapM fun d => parse (Text.trim d) line
  return fields.filterMap id

/-- The fields of the rows from `line` on, at brace depth `depth`. A row with a brace, or
inside braces, declares none. -/
def ofRows (depth line : Nat) : List (Text × LineClass) → Except SplitCharacter (List Field)
  | [] => .ok []
  | (row, cls) :: rest => do
      let opens := row.count '{'
      let closes := row.count '}'
      let nested := 0 < depth || 0 < opens || 0 < closes
      let here ← if nested || !cls.isExecutable then .ok [] else ofRow row line
      let there ← ofRows (depth + opens - closes) (line + 1) rest
      return here ++ there

/-- The fields in the text between a struct's braces, which starts on line `first`. -/
def all (inner : Text) (first : Nat) (ms : Markers) : Except SplitCharacter (List Field) :=
  ofRows 0 first ((Text.rows inner.masked).zip (ms.classifyLines (Text.rows inner)))

end Field

/-- An enumerator and its line. -/
structure Enumerator where
  name : Text
  line : Nat
  deriving DecidableEq, Repr

namespace Enumerator

/-- The names that the items of a row start with. -/
def namesOfRow (row : Text) : List Text :=
  ((Text.splitTopLevel row row).map fun item => Text.trim (item.takeWhile (· != '='))).filter
    Text.isIdentifier

/-- Adds an enumerator unless its name is known. -/
def insert (values : List Enumerator) (v : Enumerator) : List Enumerator :=
  if values.any (·.name == v.name) then values else values ++ [v]

def ofRows (line : Nat) (values : List Enumerator) :
    List (Text × LineClass) → List Enumerator
  | [] => values
  | (row, cls) :: rest =>
      let names := if cls.isExecutable then namesOfRow row else []
      ofRows (line + 1) (names.foldl (fun vs name => insert vs ⟨name, line⟩) values) rest

/-- The enumerators in the text between an enum's braces, which starts on line `first`. Each
is kept once, with its first line. -/
def all (inner : Text) (first : Nat) (ms : Markers) : List Enumerator :=
  ofRows first [] ((Text.rows inner.masked).zip (ms.classifyLines (Text.rows inner)))

end Enumerator
end StructuralRules
