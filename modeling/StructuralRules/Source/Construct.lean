import StructuralRules.Source.Body
import StructuralRules.Source.File
import StructuralRules.Source.Member

/-!
# Functions, structs and enums

A construct is found by the shape of its header in the masked text; nothing is
parsed beyond that. What cannot be found is absent, never an error. The one
failure is a struct with a declaration that cannot be cut.
-/

set_option autoImplicit false

namespace StructuralRules

/-- A function definition. -/
structure FunctionDef where
  name : String
  startLine : Nat
  endLine : Nat
  /-- Header through closing brace. -/
  text : Text
  /-- The text between the braces. -/
  body : Text
  /-- Line of the opening brace. -/
  bodyLine : Nat
  deriving DecidableEq, Repr

/-- A struct definition with the fields that could be read. -/
structure StructDef where
  name : String
  startLine : Nat
  endLine : Nat
  text : Text
  fields : List Field
  deriving DecidableEq, Repr

/-- An enum definition with its enumerators in declaration order. -/
structure EnumDef where
  name : String
  startLine : Nat
  endLine : Nat
  text : Text
  values : List Enumerator
  deriving DecidableEq, Repr

namespace StructDef

/-- The first field with the name. -/
def field? (s : StructDef) (name : String) : Option Field :=
  s.fields.find? (·.name == name.toList)

end StructDef

namespace EnumDef

def contains (e : EnumDef) (name : String) : Bool :=
  e.values.any (·.name == name.toList)

end EnumDef

namespace FunctionDef

/-- At the start of a line at least one word of a return type, then the name, a parameter
list without braces and semicolons, and an opening brace. -/
def header (name : String) : Regex :=
  let letter : CharSet := .ofRanges [('A'.toNat, 'Z'.toNat), ('a'.toNat, 'z'.toNat), (95, 95)]
  let spaces : Regex := .star true (.set .space)
  .seq
    [.anchor .lineStart, .star true (.set (.ofChars [' ', '\t'])),
     .plus true (.seq
       [.set letter, .star true (.set .word), .plus true (.set (.union .space (.single '*')))]),
     .literal name.toList, spaces, .char '(',
     .star true (.set (.compl (.ofChars [';', '{', '}']))), .char ')', spaces, .char '{']

/-- The definition of the function in a file. -/
def find? (file : SourceFile) (name : String) : Option FunctionDef :=
  (Text.firstBody? file.text (header name)).map fun b =>
    ⟨name, b.startLine, b.endLine, b.text, b.inner, b.openLine⟩

end FunctionDef

/-- The two kinds of constructs with members. -/
inductive Aggregate where
  | struct
  | enum
  deriving DecidableEq, Repr

namespace Aggregate

def keyword : Aggregate → String
  | .struct => "struct"
  | .enum => "enum"

/-- The keyword, the tag and an opening brace. -/
def taggedHeader (k : Aggregate) (name : String) : Regex :=
  .seq
    [.anchor (.word .boundary true), .literal k.keyword.toList, .plus true (.set .space),
     .literal name.toList, .star true (.set .space), .char '{']

/-- A type definition of the kind, up to its opening brace. -/
def typedefHeader (k : Aggregate) : Regex :=
  .seq
    [.anchor (.word .boundary true), .literal "typedef".toList, .plus true (.set .space),
     .literal k.keyword.toList, .anchor (.word .boundary true),
     .star true (.set (.compl (.ofChars [';', '{', '}']))), .char '{']

/-- The name behind the closing brace of a type definition. -/
def aliasAfter (name : String) : Regex :=
  .seq
    [.anchor .textStart, .star true (.set .space), .literal name.toList,
     .star true (.set .space), .set (.ofChars [';', ',', '['])]

/-- The body of the tagged definition or else of the type definition with that name. -/
def body? (k : Aggregate) (text : Text) (name : String) : Option Body :=
  (Text.firstBody? text (k.taggedHeader name)).or <|
    let masked := text.masked
    (Text.bodies text k.typedefHeader).find? fun b =>
      (aliasAfter name).isMatch ((Text.drop? masked b.stop).getD [])

end Aggregate

/-- The definition of the struct in a file. -/
def StructDef.find? (file : SourceFile) (name : String) (ms : Markers) :
    Except SplitCharacter (Option StructDef) :=
  match Aggregate.struct.body? file.text name with
  | none => .ok none
  | some b => do
      let fields ← Field.all b.inner b.openLine ms
      return some ⟨name, b.startLine, b.endLine, b.text, fields⟩

/-- The definition of the enum in a file. -/
def EnumDef.find? (file : SourceFile) (name : String) (ms : Markers) : Option EnumDef :=
  (Aggregate.enum.body? file.text name).map fun b =>
    ⟨name, b.startLine, b.endLine, b.text, Enumerator.all b.inner b.openLine ms⟩

/-- A construct that was found. -/
inductive Construct where
  | function (d : FunctionDef)
  | struct (d : StructDef)
  | enum (d : EnumDef)
  deriving DecidableEq, Repr

namespace Construct

def kind : Construct → String
  | .function _ => "function"
  | .struct _ => "struct"
  | .enum _ => "enum"

def name : Construct → String
  | .function d => d.name
  | .struct d => d.name
  | .enum d => d.name

def startLine : Construct → Nat
  | .function d => d.startLine
  | .struct d => d.startLine
  | .enum d => d.startLine

def endLine : Construct → Nat
  | .function d => d.endLine
  | .struct d => d.endLine
  | .enum d => d.endLine

def text : Construct → Text
  | .function d => d.text
  | .struct d => d.text
  | .enum d => d.text

end Construct
end StructuralRules
