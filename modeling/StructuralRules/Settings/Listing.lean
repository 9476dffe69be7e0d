import StructuralRules.Settings.Basic

/-!
# Listing the rules

One line for each rule, in columns, with its description below it. A column is
as wide as the most bytes in it, and is filled up by counting characters.
-/

set_option autoImplicit false

namespace StructuralRules.RuleSpec

/-- Fills a text up with spaces to a number of characters. -/
def padded (width : Nat) (s : String) : String :=
  s ++ String.ofList (List.replicate (width - s.length) ' ')

/-- The most bytes in a column. -/
def columnWidth (column : List String) : Nat :=
  (column.map (·.utf8ByteSize)).foldl max 0

def listingLines (idWidth kindWidth : Nat) (s : RuleSpec) : String :=
  padded idWidth s.id ++ "  " ++ padded kindWidth s.kind.name ++ "  " ++
    padded 4 s.severity.name ++ "  " ++ s.name ++ "\n" ++
    match s.description with
    | some d => padded idWidth "" ++ "  " ++ d ++ "\n"
    | none => ""

def listing (specs : List RuleSpec) : String :=
  if specs.isEmpty then "No rules configured.\n"
  else
    let idWidth := columnWidth (specs.map (·.id))
    let kindWidth := columnWidth (specs.map (·.kind.name))
    String.join (specs.map (listingLines idWidth kindWidth)) ++ "\n" ++
      toString specs.length ++ " rules\n"

end StructuralRules.RuleSpec
