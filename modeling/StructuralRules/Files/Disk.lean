import StructuralRules.Error
import StructuralRules.Files.Path
import StructuralRules.Text.Utf8

/-!
# A tree of files

Files, links and directories as a value. A place is the list of names from the
root to a file or directory, without links. Paths are resolved to places: each
component is looked up in a directory, and a link is replaced by its target.
-/

set_option autoImplicit false

namespace StructuralRules

inductive Node where
  | file (bytes : Bytes)
  | link (target : String)
  | dir (entries : List (String × Node))
  deriving Inhabited, Repr

/-- Names from the root. -/
abbrev Place := List String

namespace Place

def path (p : Place) : String :=
  "/" ++ "/".intercalate p

end Place

namespace Node

def child? (name : String) : List (String × Node) → Option Node
  | [] => none
  | (n, node) :: es => if n = name then some node else child? name es

/-- The node at a place below a node. -/
def at? : Node → Place → Option Node
  | node, [] => some node
  | .dir es, n :: ns =>
      match child? n es with
      | some node => node.at? ns
      | none => none
  | _, _ :: _ => none

def setChild (name : String) (node : Node) : List (String × Node) → List (String × Node)
  | [] => [(name, node)]
  | (n, old) :: es => if n = name then (n, node) :: es else (n, old) :: setChild name node es

/-- Puts a node at a place. Directories on the way are made where there are none. -/
def put (new : Node) : Place → Node → Node
  | [], _ => new
  | n :: ns, .dir es => .dir (setChild n (put new ns ((child? n es).getD (.dir []))) es)
  | n :: ns, _ => .dir [(n, put new ns (.dir []))]

mutual

/-- The files below a node, with their paths behind `path`. -/
def filesFrom (path : String) : Node → List (String × Bytes)
  | .file bytes => [(path, bytes)]
  | .link _ => []
  | .dir es => filesOf path es

def filesOf (path : String) : List (String × Node) → List (String × Bytes)
  | [] => []
  | (n, node) :: es => filesFrom (Path.join path n) node ++ filesOf path es

end

mutual

/-- Number of directories. -/
def dirCount : Node → Nat
  | .dir es => dirCounts es + 1
  | _ => 0

def dirCounts : List (String × Node) → Nat
  | [] => 0
  | (_, node) :: es => dirCount node + dirCounts es

end
end Node

/-- All files, and the place from which relative paths start. -/
structure Disk where
  root : Node
  cwd : Place
  deriving Inhabited, Repr

namespace Disk

/-- Where a path leads. -/
inductive Goal where
  | found (place : Place) (node : Node)
  /-- Nothing has the name in the directory yet. -/
  | free (dir : Place) (name : String)

/-- The number of links that may be followed on one way. -/
def linkLimit : Nat := 40

/-- Follows segments from a place. Every segment, also an empty one, asks for a directory. -/
def follow (d : Disk) (links : Nat) (place : Place) (node : Node) (segments : List String) :
    Except FileError Goal :=
  match segments with
  | [] => .ok (.found place node)
  | s :: rest =>
      match node with
      | .dir es =>
          if s = "" ∨ s = "." then d.follow links place node rest
          else if s = ".." then
            d.follow links place.dropLast ((d.root.at? place.dropLast).getD node) rest
          else
            match Node.child? s es with
            | none => if rest.isEmpty then .ok (.free place s) else .error .notFound
            | some (.link target) =>
                match links with
                | 0 => .error .linkLoop
                | n + 1 =>
                    let steps := Path.segments target ++ rest
                    if Path.isAbsolute target then d.follow n [] d.root steps
                    else d.follow n place node steps
            | some next => d.follow links (place ++ [s]) next rest
      | _ => .error .notDirectory
termination_by (links, segments.length)

/-- Follows a path from a place. -/
def goalFrom (d : Disk) (start : Place) (path : String) : Except FileError Goal :=
  if path = "" then .error .notFound
  else
    let start := if Path.isAbsolute path then [] else start
    match d.root.at? start with
    | some node => d.follow linkLimit start node (Path.segments path)
    | none => .error .notFound

/-- The place and the node that a path leads to. -/
def resolveFrom (d : Disk) (start : Place) (path : String) : Except FileError (Place × Node) := do
  match ← d.goalFrom start path with
  | .found place node => return (place, node)
  | .free _ _ => throw .notFound

def resolve (d : Disk) (path : String) : Except FileError (Place × Node) :=
  d.resolveFrom d.cwd path

def exists? (d : Disk) (path : String) : Bool :=
  (d.resolve path).isOk

/-- The place and the entries of the directory that a path leads to. -/
def dir? (d : Disk) (path : String) : Option (Place × List (String × Node)) :=
  match d.resolve path with
  | .ok (place, .dir es) => some (place, es)
  | _ => none

def read (d : Disk) (path : String) : Except FileError Bytes := do
  match ← d.resolve path with
  | (_, .file bytes) => return bytes
  | _ => throw .isDirectory

/-- The text of a file that holds nothing else. -/
def readText? (d : Disk) (path : String) : Option Text :=
  match d.read path with
  | .ok bytes => bytes.toText?
  | .error _ => none

def putFile (d : Disk) (place : Place) (bytes : Bytes) : Disk :=
  { d with root := Node.put (.file bytes) place d.root }

/-- Writes a file, which may be a new one. A path that ends in a slash names a directory. -/
def write (d : Disk) (path : String) (bytes : Bytes) : Except FileError Disk :=
  let named := (path.toList.reverse.dropWhile (· == '/')).reverse
  match d.goalFrom d.cwd (String.ofList named) with
  | .error e => .error e
  | .ok goal =>
      if named.length < path.length then .error .isDirectory
      else
        match goal with
        | .free dir name => .ok (d.putFile (dir ++ [name]) bytes)
        | .found place (.file _) => .ok (d.putFile place bytes)
        | .found _ _ => .error .isDirectory

/-- The files below the working directory, by their paths from there. -/
def localFiles (d : Disk) : List (String × Bytes) :=
  match d.root.at? d.cwd with
  | some (.dir es) => Node.filesOf "" es
  | _ => []

end Disk
end StructuralRules
