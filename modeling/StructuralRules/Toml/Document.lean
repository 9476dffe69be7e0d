import StructuralRules.Toml.Draft
import StructuralRules.Toml.Scalar

/-!
# TOML documents

A document is read line by line: headers, keys with values, comments and blank
lines. Arrays and inline tables may spread over lines.
-/

set_option autoImplicit false

namespace StructuralRules.Toml

def dropSpaces (t : Text) : Text :=
  t.dropWhile isSpace

/-- What follows the end of a line, which may be the end of the text. -/
def lineEnd? : Text → Option Text
  | [] => some []
  | '\n' :: t => some t
  | '\r' :: '\n' :: t => some t
  | _ => none

/-- What follows a comment, which reaches to the end of its line. -/
def dropComment (t : Text) : Text :=
  match t with
  | '#' :: t => t.dropWhile (!isControl ·)
  | t => t

/-- What follows spaces, an optional comment and the end of the line. -/
def finishLine? (t : Text) : Option Text :=
  lineEnd? (dropComment (dropSpaces t))

/-- What follows spaces, comments and line ends. -/
def dropBlankLines : Nat → Text → Option Text
  | 0, _ => none
  | fuel + 1, t =>
      match dropSpaces t with
      | '#' :: t =>
          match t.dropWhile (!isControl ·) with
          | [] => some []
          | t => (lineEnd? t).bind (dropBlankLines fuel)
      | '\n' :: t => dropBlankLines fuel t
      | '\r' :: '\n' :: t => dropBlankLines fuel t
      | t => some t

/-! ## Keys -/

def isBareKeyChar (c : Char) : Bool :=
  c.isAlphanum || c == '_' || c == '-'

/-- One part of a key. -/
def readKeyPart : Text → Option (String × Text)
  | '"' :: t => (readBasic 0 t).map fun (s, rest) => (String.ofList s, rest)
  | '\'' :: t => (readLiteral t).map fun (s, rest) => (String.ofList s, rest)
  | t =>
      let key := t.takeWhile isBareKeyChar
      if key.isEmpty then none else some (String.ofList key, t.drop key.length)

/-- A key: its parts up to the last one, the last one, and the rest behind spaces. -/
def readKey : Nat → Text → Option (List String × String × Text)
  | 0, _ => none
  | fuel + 1, t => do
      let (part, t) ← readKeyPart (dropSpaces t)
      match dropSpaces t with
      | '.' :: t => do
          let (path, last, rest) ← readKey fuel t
          return (part :: path, last, rest)
      | t => return ([], part, t)

/-! ## Values -/

/-- The number of arrays and inline tables that may stand inside one another. -/
def depthLimit : Nat := 80

mutual

def readValue : Nat → Nat → Text → Option (Data × Text)
  | 0, _, _ => none
  | fuel + 1, depth, t =>
      let string := fun (r : Option (Text × Text)) =>
        r.map fun (s, rest) => (Data.string (String.ofList s), rest)
      match t with
      | '"' :: '"' :: '"' :: t => string (readMultiBasic 0 (dropNewline t))
      | '"' :: t => string (readBasic 0 t)
      | '\'' :: '\'' :: '\'' :: t => string (readMultiLiteral (dropNewline t))
      | '\'' :: t => string (readLiteral t)
      | '[' :: t => do
          if depthLimit ≤ depth then none
          let (items, rest) ← readItems fuel (depth + 1) t
          return (.list items, rest)
      | '{' :: t => do
          if depthLimit ≤ depth then none
          let (es, rest) ← readPairs fuel (depth + 1) [] t
          return (.table (Draft.entriesData es), rest)
      | t => do
          let (run, rest) := splitBareValue t
          return (← bareValue? run, rest)

/-- The items of an array up to its bracket. -/
def readItems : Nat → Nat → Text → Option (List Data × Text)
  | 0, _, _ => none
  | fuel + 1, depth, t => do
      match ← dropBlankLines (t.length + 1) t with
      | ']' :: rest => return ([], rest)
      | t =>
          let (d, t) ← readValue fuel depth t
          match ← dropBlankLines (t.length + 1) t with
          | ',' :: t => do
              let (ds, rest) ← readItems fuel depth t
              return (d :: ds, rest)
          | ']' :: rest => return ([d], rest)
          | _ => none

/-- The pairs of an inline table up to its brace. -/
def readPairs : Nat → Nat → Entries → Text → Option (Entries × Text)
  | 0, _, _, _ => none
  | fuel + 1, depth, es, t => do
      match ← dropBlankLines (t.length + 1) t with
      | '}' :: rest => return (es, rest)
      | t =>
          let (path, key, t) ← readKey (t.length + 1) t
          match t with
          | '=' :: t =>
              let (d, t) ← readValue fuel depth (dropSpaces t)
              let es ← Entries.addDotted path key d es
              match ← dropBlankLines (t.length + 1) t with
              | ',' :: t => readPairs fuel depth es t
              | '}' :: rest => return (es, rest)
              | _ => none
          | _ => none

end

/-! ## Lines -/

/-- What a document holds so far, and the header its next keys belong to. -/
structure State where
  entries : Entries
  header : List String

def State.addPair (s : State) (path : List String) (key : String) (d : Data) : Option State := do
  return { s with entries := ← Entries.addBelow s.header path key d s.entries }

/-- Reads one line that is not blank, and what goes on from it. -/
def readLine (s : State) (t : Text) : Option (State × Text) :=
  match t with
  | '[' :: '[' :: t => do
      let (path, key, t) ← readKey (t.length + 1) t
      match t with
      | ']' :: ']' :: t =>
          return (⟨← Entries.openTables path key s.entries, path ++ [key]⟩, ← finishLine? t)
      | _ => none
  | '[' :: t => do
      let (path, key, t) ← readKey (t.length + 1) t
      match t with
      | ']' :: t =>
          return (⟨← Entries.openTable path key s.entries, path ++ [key]⟩, ← finishLine? t)
      | _ => none
  | t => do
      let (path, key, t) ← readKey (t.length + 1) t
      match t with
      | '=' :: t =>
          let t := dropSpaces t
          let (d, t) ← readValue (2 * t.length + 2) 0 t
          return (← s.addPair path key d, ← finishLine? t)
      | _ => none

def readLines : Nat → State → Text → Option Entries
  | 0, _, _ => none
  | fuel + 1, s, t => do
      match ← dropBlankLines (t.length + 1) t with
      | [] => return s.entries
      | t => do
          let (s, rest) ← readLine s t
          readLines fuel s rest

/-- The table that a document describes. A mark of the byte order may come first. -/
def parse? (source : Text) : Option Data := do
  let t := if source.head? == some '\ufeff' then source.drop 1 else source
  let es ← readLines (t.length + 1) ⟨[], []⟩ t
  return .table (Draft.entriesData es)

end StructuralRules.Toml
