import StructuralRules.Data.Basic

/-!
# TOML tables under construction

A table knows how it came to be, because that decides what may still be added
to it: a header opens a table once; a longer header or a dotted key makes the
tables on its way, and neither may be made again in the other's manner.
-/

set_option autoImplicit false

namespace StructuralRules.Toml

/-- How a table came to be. -/
inductive Made where
  | byHeader
  /-- On the way of a header. -/
  | onTheWay
  /-- On the way of a dotted key. -/
  | byDots
  deriving DecidableEq, Repr

/-- A value, or tables that may still grow. -/
inductive Draft where
  | value (d : Data)
  | table (made : Made) (entries : List (String × Draft))
  /-- An array of tables, the last one of which may grow. -/
  | tables (done : List Data) (last : List (String × Draft))
  deriving Inhabited

abbrev Entries := List (String × Draft)

namespace Draft

mutual

def toData : Draft → Data
  | .value d => d
  | .table _ es => .table (entriesData es)
  | .tables done last => .list (done ++ [.table (entriesData last)])

def entriesData : List (String × Draft) → List (String × Data)
  | [] => []
  | (k, d) :: es => (k, toData d) :: entriesData es

end
end Draft

namespace Entries

def find? (key : String) : Entries → Option Draft
  | [] => none
  | (k, d) :: es => if k = key then some d else find? key es

/-- Puts a draft in the place of the one with the key, or behind all. -/
def set (key : String) (d : Draft) : Entries → Entries
  | [] => [(key, d)]
  | (k, old) :: es => if k = key then (k, d) :: es else (k, old) :: set key d es

/-- Adds a value under a key that is not taken. -/
def addNew (key : String) (d : Draft) (es : Entries) : Option Entries :=
  if (find? key es).isSome then none else some (set key d es)

/-- Changes the table at the end of a path. Tables on the way are made in the manner `way`, and
those that a header opened cannot be entered by dots. The change is told how its table was
made; `made` is how this one was. -/
def change (way : Made) (f : Made → Entries → Option Entries) (made : Made) :
    List String → Entries → Option Entries
  | [], es => f made es
  | key :: path, es =>
      match find? key es with
      | none => do
          return set key (.table way (← change way f way path [])) es
      | some (.table m inner) =>
          if way == .byDots && m == .byHeader then none
          else do return set key (.table m (← change way f m path inner)) es
      | some (.tables done last) => do
          return set key (.tables done (← change way f .byHeader path last)) es
      | some (.value _) => none

/-- Adds a value under a dotted key. The table it goes to was itself made by dots, unless the
key has one part. -/
def addDotted (path : List String) (key : String) (d : Data) (es : Entries) : Option Entries :=
  change .byDots
    (fun made es => if made == .byDots || path.isEmpty then addNew key (.value d) es else none)
    .byHeader path es

/-- Opens the table that a header names. -/
def openTable (path : List String) (key : String) (es : Entries) : Option Entries :=
  change .onTheWay
    (fun _ es =>
      match find? key es with
      | none => some (set key (.table .byHeader []) es)
      | some (.table .onTheWay inner) => some (set key (.table .byHeader inner) es)
      | some _ => none)
    .byHeader path es

/-- Adds a table to the array of tables that a header names. -/
def openTables (path : List String) (key : String) (es : Entries) : Option Entries :=
  change .onTheWay
    (fun _ es =>
      match find? key es with
      | none => some (set key (.tables [] []) es)
      | some (.tables done last) =>
          some (set key (.tables (done ++ [.table (Draft.entriesData last)]) []) es)
      | some _ => none)
    .byHeader path es

/-- Adds a value to the table that the last header opened. -/
def addBelow (header path : List String) (key : String) (d : Data) (es : Entries) :
    Option Entries :=
  change .onTheWay (fun _ es => addDotted path key d es) .byHeader header es

end Entries
end StructuralRules.Toml
