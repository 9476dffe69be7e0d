/-!
# Data trees

The common form of settings files and of reports: scalars, lists, and tables
whose entries keep their order.
-/

set_option autoImplicit false

namespace StructuralRules

inductive Data where
  | null
  | bool (b : Bool)
  | int (n : Int)
  /-- A number with a fraction or an exponent, as written. -/
  | float (literal : String)
  /-- A date, a time or both, as written. -/
  | moment (literal : String)
  | string (s : String)
  | list (items : List Data)
  | table (entries : List (String × Data))
  deriving Inhabited, Repr

namespace Data

def nat (n : Nat) : Data :=
  .int n

/-- The value of the first entry with the key. -/
def find? (key : String) : List (String × Data) → Option Data
  | [] => none
  | (k, d) :: es => if k = key then some d else find? key es

/-- An entry that is left out when there is no value. -/
def optionalEntry (key : String) (value : Option Data) : List (String × Data) :=
  match value with
  | some d => [(key, d)]
  | none => []

end Data
end StructuralRules
