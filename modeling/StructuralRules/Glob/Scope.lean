import StructuralRules.Glob.Basic

/-!
# File scopes

The files a rule reads, as globs over paths relative to the scan root. A path is
in scope when some glob matches it, so an empty scope holds no file.
-/

set_option autoImplicit false

namespace StructuralRules

/-- The files a rule reads. -/
structure FileScope where
  globs : List Glob

namespace FileScope

/-- Compiles the globs; the error is the first glob that does not compile. -/
def compile (sources : List String) : Except String FileScope := do
  let globs ← sources.mapM fun s => (Glob.compile s).mapError fun _ => s
  return ⟨globs⟩

/-- Every file. -/
def all : FileScope :=
  ⟨[⟨"**", [.leading]⟩]⟩

def isMatch (s : FileScope) (path : String) : Bool :=
  s.globs.any (·.isMatch path)

/-- The globs as written. -/
def sources (s : FileScope) : List String :=
  s.globs.map (·.source)

/-- The place of a finding that concerns the whole scope. -/
def describe (s : FileScope) : String :=
  ", ".intercalate s.sources

end FileScope
end StructuralRules
