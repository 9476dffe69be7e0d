import StructuralRules.Finding
import StructuralRules.Glob.Scope
import StructuralRules.Source.File

/-!
# The corpus

All files that were loaded, sorted by path, one for each path, together with the
problems met while loading.
-/

set_option autoImplicit false

namespace StructuralRules

/-- The first element of each run of elements with the same key. -/
def dropRepeats {α : Type} (key : α → String) : List α → List α
  | [] => []
  | a :: l => a :: (dropRepeats key l).dropWhile (key · = key a)

structure Corpus where
  files : List SourceFile
  warnings : List Finding
  deriving DecidableEq, Repr

namespace Corpus

/-- Sorts the files by path and keeps the first one for each path. -/
def ofFiles (files : List SourceFile) (warnings : List Finding) : Corpus where
  files := dropRepeats (·.path) (files.mergeSort fun a b => a.path ≤ b.path)
  warnings := warnings

/-- Looks for a path in files that are sorted by path. The window is halved until at most one
file is left. -/
def search? (path : String) (window : List SourceFile) : Option SourceFile :=
  if h : 1 < window.length then
    let half := window.length / 2
    if path < window[half].path then search? path (window.take (window.length - half))
    else search? path (window.drop half)
  else window.find? (·.path == path)
termination_by window.length
decreasing_by
  · simp only [List.length_take]
    omega
  · simp only [List.length_drop]
    omega

def get? (c : Corpus) (path : String) : Option SourceFile :=
  search? path c.files

/-- The files in scope, in corpus order. -/
def inScope (c : Corpus) (s : FileScope) : List SourceFile :=
  c.files.filter fun f => s.isMatch f.path

end Corpus
end StructuralRules
