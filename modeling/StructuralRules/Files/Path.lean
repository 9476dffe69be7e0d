import StructuralRules.Text.Basic

/-!
# Paths

A path is text with slashes. Its parts are what it says component by component:
repeated slashes and dots behind the first component say nothing.
-/

set_option autoImplicit false

namespace StructuralRules

/-- What one component of a path says. -/
inductive PathPart where
  | root
  /-- A leading dot. -/
  | here
  | up
  | name (n : String)
  deriving DecidableEq, Repr

namespace PathPart

def text : PathPart → String
  | .root => "/"
  | .here => "."
  | .up => ".."
  | .name n => n

def name? : PathPart → Option String
  | .name n => some n
  | _ => none

end PathPart

namespace Path

/-- The pieces between the slashes. -/
def segments (path : String) : List String :=
  (Text.splitBy (· == '/') path.toList).map String.ofList

def isAbsolute (path : String) : Bool :=
  path.toList.head? == some '/'

/-- The part of a segment that is not the first one. -/
def part? : String → Option PathPart
  | "" => none
  | "." => none
  | ".." => some .up
  | n => some (.name n)

def parts (path : String) : List PathPart :=
  if isAbsolute path then .root :: (segments path).filterMap part?
  else
    match segments path with
    | "." :: rest => .here :: rest.filterMap part?
    | rest => rest.filterMap part?

/-- Puts one path behind another. An absolute path stays alone. -/
def join (path next : String) : String :=
  if isAbsolute next then next
  else
    match path.toList.getLast? with
    | none => next
    | some '/' => path ++ next
    | some _ => path ++ "/" ++ next

/-- The names by which `path` goes on behind `base`. All parts that are no names are left out. -/
def relative? (path base : String) : Option String :=
  if (parts base).isPrefixOf (parts path) then
    some ("/".intercalate (((parts path).drop (parts base).length).filterMap (·.name?)))
  else none

/-- What follows the last dot of the final name, unless the name starts there. -/
def extension? (path : String) : Option String :=
  match (parts path).getLast? with
  | some (.name n) =>
      let behind := n.toList.reverse.takeWhile (· != '.')
      let before := n.toList.reverse.drop (behind.length + 1)
      if before.isEmpty then none else some (String.ofList behind.reverse)
  | _ => none

/-- The parts before the last one, if that is not the root. -/
def parentParts (path : String) : List PathPart :=
  match (parts path).getLast? with
  | some .root => []
  | _ => (parts path).dropLast

end Path
end StructuralRules
