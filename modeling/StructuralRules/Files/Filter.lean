import StructuralRules.Files.Path
import StructuralRules.Settings.Validation

/-!
# Which files are sources

A file below a source root is read when its extension is listed, none of the
directories above it is excluded by name, and no glob excludes its path.
-/

set_option autoImplicit false

namespace StructuralRules

structure SourceFilter where
  extensions : List String
  excludeDirs : List String
  exclude : FileScope

namespace SourceFilter

/-- Whether a directory of the name is entered. -/
def descends (f : SourceFilter) (name : String) : Bool :=
  !f.excludeDirs.contains name

/-- Whether the file with a path relative to the scan root is read. -/
def includes (f : SourceFilter) (path : String) : Bool :=
  (Path.extension? path).any f.extensions.contains &&
    (Path.parentParts path).all (fun p => f.descends p.text) && !f.exclude.isMatch path

end SourceFilter
end StructuralRules
