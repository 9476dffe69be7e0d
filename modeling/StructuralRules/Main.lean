import StructuralRules.CommandLine.Run

/-!
# The program

Takes a picture of the files that a command can see, carries the command out on
it, and writes back what changed.
-/

set_option autoImplicit false

namespace StructuralRules.Program

/-- The names of an absolute path. -/
def placeOf (path : String) : Place :=
  (Path.parts path).filterMap (·.name?)

/-- The place that a link leads to. A link to nothing leads to a name that nothing has. -/
def linkTarget (path : String) : IO String := do
  try
    return (← IO.FS.realPath path).toString
  catch _ =>
    return path ++ " (missing)"

/-- The files at a path without links. -/
partial def picture (path : String) : IO Node := do
  let real ← IO.FS.realPath path
  if ← real.isDir then
    let mut entries : List (String × Node) := []
    for entry in ← real.readDir do
      let inner := entry.path.toString
      let node ←
        match (← entry.path.symlinkMetadata).type with
        | .symlink => pure (Node.link (← linkTarget inner))
        | .dir | .file => picture inner
        | .other => pure (Node.file [])
      entries := (entry.fileName, node) :: entries
    return .dir entries.reverse
  else
    return .file (← IO.FS.readBinFile path).toList

/-- The picture of one more path, if there is something. -/
def addPicture (root : Node) (path : String) : IO Node := do
  try
    let real := (← IO.FS.realPath path).toString
    return Node.put (← picture real) (placeOf real) root
  catch _ =>
    return root

/-- The paths that a command names. -/
def pathsOf : Command → List String
  | .check a => [a.root] ++ a.config.toList ++ a.output.toList
  | .rules a => [a.root] ++ a.config.toList
  | .init a => [a.output]

/-- The directory of the user's own settings. -/
def userDir : IO (Option String) := do
  let name := "fitness-guard"
  match ← IO.getEnv "XDG_CONFIG_HOME", ← IO.getEnv "HOME" with
  | some dir, _ => return some (Path.join dir name)
  | none, some home => return some (Path.join (Path.join home ".config") name)
  | none, none => return none

/-- What a command sees: the working directory, the paths it names and the user's settings. -/
def world (c : Command) : IO World := do
  let cwd := (← IO.currentDir).toString
  let userDir ← userDir
  let mut root := Node.dir []
  for path in userDir.toList ++ pathsOf c ++ [cwd] do
    root ← addPicture root path
  let noColour := (← IO.getEnv "NO_COLOR").isSome
  let terminal ← (← IO.getStdout).isTty
  return { disk := ⟨root, placeOf cwd⟩, userDir, showsColours := terminal && !noColour }

/-- Writes the files that differ. -/
def writeBack (before after : Disk) : IO Unit := do
  let old := before.root.filesFrom ""
  for (path, bytes) in after.root.filesFrom "" do
    if !old.contains (path, bytes) then
      IO.FS.writeBinFile ("/" ++ path) (ByteArray.mk bytes.toArray)

def version : String := "fitness-guard 0.1.0"

def usage : String :=
  "Usage: fitness-guard [OPTIONS] <check|rules|init>"

/-- Says why a command line is not carried out. -/
def explain (s : Stop) : IO Unit :=
  match s with
  | .displayVersion => IO.println version
  | .displayHelp => IO.println usage
  | _ => IO.eprintln usage

end StructuralRules.Program

open StructuralRules StructuralRules.Program in
def main (args : List String) : IO UInt32 := do
  match Arguments.parse args with
  | .error stop =>
      explain stop
      return stop.exitCode.toUInt32
  | .ok arguments =>
      let seen ← world arguments.command
      let effect := arguments.run seen
      writeBack seen.disk effect.disk
      IO.print effect.stdout
      IO.eprint effect.stderr
      return effect.exitCode.toUInt32
