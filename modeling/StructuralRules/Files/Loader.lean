import StructuralRules.Files.Disk
import StructuralRules.Files.Filter

/-!
# Loading the corpus

Each source root is walked for files that the filter takes. Links are followed
only when the settings say so, only to places below the scan root, and never to
a directory on the way to them. A link that leads nowhere and a link to a
directory above it are reported; neither stops the walk.
-/

set_option autoImplicit false

namespace StructuralRules

/-- What a walk meets. -/
inductive Encounter where
  /-- A file that is read: its path, and its path relative to the scan root. -/
  | source (path relative : String)
  | trouble (warning : Finding)

namespace Encounter

def source? : Encounter → Option (String × String)
  | .source path relative => some (path, relative)
  | .trouble _ => none

def trouble? : Encounter → Option Finding
  | .source _ _ => none
  | .trouble w => some w

end Encounter

/-- What stays the same during a walk. -/
structure Walk where
  disk : Disk
  filter : SourceFilter
  followLinks : Bool
  /-- The place of the scan root. -/
  base : Place
  /-- The directory that is walked. -/
  dir : String

namespace Walk

/-- Reports trouble with the entry at a path. -/
def trouble (w : Walk) (path message : String) : List Encounter :=
  [.trouble (.loadWarning ((Path.relative? path w.base.path).getD w.dir) message)]

/-- Takes the file at a path, if it is a source. -/
def take (w : Walk) (path : String) : List Encounter :=
  match Path.relative? path w.base.path with
  | some relative => if w.filter.includes relative then [.source path relative] else []
  | none => []

def isInside (w : Walk) (place : Place) : Bool :=
  w.base.isPrefixOf place

/-- Walks the entries of the directory at `place`, which is shown as `path`. `above` are the
directories on the way to them, and `links` is how many more links to directories may be
followed on that way. -/
def entries (w : Walk) (links : Nat) (path : String) (place : Place) (above : List Place)
    (es : List (String × Node)) : List Encounter :=
  match es with
  | [] => []
  | (name, node) :: rest =>
      let path' := Path.join path name
      let place' := place ++ [name]
      (match node with
        | .file _ => w.take path'
        | .dir inner =>
            if w.filter.descends name then w.entries links path' place' (place' :: above) inner
            else []
        | .link _ =>
            if !w.followLinks then []
            else
              match w.disk.resolveFrom place name with
              | .error e =>
                  w.trouble path'
                    ("cannot walk entry: IO error for operation on " ++ path' ++ ": " ++ e.message)
              | .ok (target, .dir inner) =>
                  if above.contains target then w.trouble path' "symbolic link loop skipped"
                  else if !w.filter.descends name || !w.isInside target then []
                  else
                    match links with
                    | 0 => []
                    | n + 1 => w.entries n path' target (target :: above) inner
              | .ok (target, _) => if w.isInside target then w.take path' else []) ++
        w.entries links path place above rest
termination_by (links, sizeOf es)

/-- Walks a directory. No way follows more links than there are directories. -/
def encounters (w : Walk) : List Encounter :=
  match w.disk.dir? w.dir with
  | some (place, es) => w.entries w.disk.root.dirCount w.dir place [place] es
  | none => []

end Walk

/-- A corpus and the place it was loaded from. -/
structure Loaded where
  root : Place
  corpus : Corpus

namespace ScanSettings

/-- What is met below the source roots that exist. -/
def encounters (s : ScanSettings) (d : Disk) (base : Place) (exclude : FileScope) :
    List Encounter :=
  s.roots.flatMap fun r =>
    Walk.encounters
      { disk := d
        filter := ⟨r.extensions, s.excludeDirs, exclude⟩
        followLinks := s.followLinks
        base
        dir := Path.join base.path r.dir }

/-- The file at a path, or why it cannot be read. -/
def readSource (d : Disk) (path relative : String) : Except Finding SourceFile :=
  match d.read path with
  | .ok bytes => .ok ⟨relative, bytes.toTextLossy⟩
  | .error e => .error (.loadWarning relative ("cannot read file: " ++ e.message))

/-- Loads the files below a scan root. -/
def load (s : ScanSettings) (d : Disk) (root : String) : Except Error Loaded := do
  let exclude ← s.excluded
  match d.dir? root with
  | none => throw (.settings (.scanRoot root))
  | some (base, _) =>
      let met := s.encounters d base exclude
      let found := (met.filterMap (·.source?)).mergeSort fun a b => a.2 ≤ b.2
      let read := (dropRepeats (·.2) found).map fun (path, relative) => readSource d path relative
      let files := read.filterMap (·.toOption)
      let unread := read.filterMap fun
        | .ok _ => none
        | .error w => some w
      return ⟨base, .ofFiles files (met.filterMap (·.trouble?) ++ unread)⟩

end ScanSettings
end StructuralRules
