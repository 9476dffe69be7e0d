import StructuralRules.Data.Basic

/-!
# Reading typed values from data

A reader takes a tree to a value or refuses it. A record is read from a table by
name, from a list by place, and from a moment as if nothing were given.
-/

set_option autoImplicit false

namespace StructuralRules.Data

/-- Reads a value of type `α`. -/
abbrev Reader (α : Type) := Data → Option α

def readString : Reader String
  | .string s => some s
  | _ => none

def readBool : Reader Bool
  | .bool b => some b
  | _ => none

/-- The first number that does not fit into 64 bits. -/
def natBound : Nat := 0x10000000000000000

def readNat : Reader Nat
  | .int (.ofNat n) => if n < natBound then some n else none
  | _ => none

def readList {α : Type} (f : Reader α) : Reader (List α)
  | .list l => l.mapM f
  | _ => none

/-- Two values in a list. -/
def readPair {α : Type} (f : Reader α) : Reader (α × α)
  | .list [a, b] => do return (← f a, ← f b)
  | _ => none

/-- One of several named choices. The name stands alone, or before something empty. -/
def readChoice {α : Type} (choices : List (String × α)) : Reader α
  | .string s => choices.lookup s
  | .table [(s, .table [])] => choices.lookup s
  | .table [(s, .list [])] => choices.lookup s
  | _ => none

/-- The entries of a record with the given keys. An exact record takes no list that is longer
than its keys. -/
def readEntries (exact : Bool) (keys : List String) : Reader (List (String × Data))
  | .table es => some es
  | .list l => if exact && keys.length < l.length then none else some (keys.zip l)
  | .moment _ => some []
  | _ => none

/-- An entry that has to be there. -/
def required {α : Type} (es : List (String × Data)) (key : String) (f : Reader α) : Option α :=
  (find? key es).bind f

/-- An entry with a standard value. -/
def orElse {α : Type} (es : List (String × Data)) (key : String) (standard : α) (f : Reader α) :
    Option α :=
  match find? key es with
  | some d => f d
  | none => some standard

/-- An entry that may be absent or null. -/
def maybe {α : Type} (es : List (String × Data)) (key : String) (f : Reader α) :
    Option (Option α) :=
  match find? key es with
  | none => some none
  | some .null => some none
  | some d => (f d).map some

mutual

/-- Whether every number fits into 64 bits, with or without a sign. -/
def fitsWords : Data → Bool
  | .int n => decide (-0x8000000000000000 ≤ n) && decide (n < 0x10000000000000000)
  | .list l => fitWords l
  | .table es => fitWordsEntries es
  | _ => true

def fitWords : List Data → Bool
  | [] => true
  | d :: ds => fitsWords d && fitWords ds

def fitWordsEntries : List (String × Data) → Bool
  | [] => true
  | (_, d) :: es => fitsWords d && fitWordsEntries es

end
end StructuralRules.Data
