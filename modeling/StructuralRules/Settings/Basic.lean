import StructuralRules.Engine
import StructuralRules.Rule.Spec

/-!
# Settings

What a run reads: where the sources are, which markers excuse lines, how rules
are run, and the rules.
-/

set_option autoImplicit false

namespace StructuralRules

/-- A directory below the scan root and the extensions that are read from it. -/
structure SourceRoot where
  dir : String
  extensions : List String
  deriving DecidableEq, Repr

/-- Which files are read. -/
structure ScanSettings where
  roots : List SourceRoot := [⟨"src", ["c", "h"]⟩, ⟨"include", ["h"]⟩]
  /-- Names of directories that are passed over anywhere in a path. -/
  excludeDirs : List String := ["external", "vendor", "third_party"]
  /-- Globs over paths relative to the scan root. -/
  exclude : List String := []
  /-- Whether links are followed. Those that lead out of the scan root never are. -/
  followLinks : Bool := false
  deriving DecidableEq, Repr

structure Settings where
  scan : ScanSettings := {}
  markers : Markers := Markers.standard
  engine : EngineOptions := {}
  rules : List RuleSpec := []
  deriving DecidableEq, Repr

namespace Settings

/-- The engine that these settings describe. -/
def buildEngine (s : Settings) : Except Error Engine := do
  return { rules := ← Rule.ofSpecs s.rules, markers := s.markers, options := s.engine }

end Settings
end StructuralRules
