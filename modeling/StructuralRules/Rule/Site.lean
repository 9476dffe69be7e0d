import StructuralRules.Error
import StructuralRules.Pattern.Basic
import StructuralRules.Rule.Template
import StructuralRules.Source.Call
import StructuralRules.Source.Construct
import StructuralRules.Source.Corpus

/-!
# Rules about sites

A site rule finds places in the files of its scope, collects the lines around
each place, and reports the places at which its condition does not hold. It may
be confined to one function. A function, struct or enum that is found nowhere is
reported as the rule's policy says.
-/

set_option autoImplicit false

namespace StructuralRules

/-- A numbered line, its masked form and its class. -/
structure CodeRow where
  number : Nat
  masked : Text
  lineClass : LineClass
  deriving DecidableEq, Repr

namespace SourceFile

/-- The rows of a file. -/
def codeRows (f : SourceFile) (ms : Markers) : List CodeRow :=
  (f.masked.numbered.zip (f.classes ms)).map fun ((n, l), c) => ⟨n, l, c⟩

end SourceFile

/-- How the places are found. -/
inductive Locator where
  /-- The code lines that match outside comments and literals. -/
  | lines (pattern : Pattern)
  | function (name : String)
  | struct (name : String)
  | enum (name : String)
  /-- The calls on code lines. -/
  | calls (name : String)

namespace Locator

/-- The construct or function that is looked for. -/
def target? : Locator → Option String
  | .lines _ => none
  | .function n | .struct n | .enum n | .calls n => some n

/-- Kind and name of a construct whose absence can be reported. -/
def construct? : Locator → Option (String × String)
  | .lines _ | .calls _ => none
  | .function n => some ("function", n)
  | .struct n => some ("struct", n)
  | .enum n => some ("enum", n)

end Locator

/-- The lines around a place that the condition sees. -/
inductive Neighborhood where
  | line
  | window (before after : Nat)
  /-- The construct, or the function the rule is confined to, or the file. -/
  | body
  deriving DecidableEq, Repr

/-- One place. -/
structure Site where
  file : SourceFile
  line : Nat
  /-- The matched text, or the name of the construct. -/
  matched : Text
  construct : Option Construct := none
  call : Option Call := none
  /-- The lines around it, masked, comments and blank lines left out. -/
  context : List (Nat × Text) := []
  deriving DecidableEq, Repr

namespace Site

def lineText (s : Site) : Text :=
  (s.file.line? s.line).getD []

def contextMatches (s : Site) (p : Pattern) : Bool :=
  s.context.any fun (_, l) => p.isMatch l

def contextText (s : Site) : Text :=
  ['\n'].intercalate (s.context.map (·.2))

end Site

/-- The first and the last line of a region. -/
abbrev Region := Nat × Nat

structure SiteRule where
  id : String
  name : String
  description : Option String := none
  severity : Severity := .fail
  onMissing : MissingPolicy := .skip
  scope : FileScope
  locator : Locator
  neighborhood : Neighborhood := .line
  /-- The function the rule is confined to. -/
  within : Option String := none
  /-- Holds at the places that are not reported. -/
  condition : Site → Bool := fun _ => false
  message : Template
  check : Option String := none
  fix : Option String := none

namespace SiteRule

/-- The files that site rules read unless told otherwise. -/
def standardFiles : List String :=
  ["**/*.c", "**/*.h"]

def standardMessage : String :=
  "'\x7bmatch\x7d' is not allowed"

/-- The region of a file that the rule reads: the whole file, which is `some none`, or the
function the rule is confined to. A file without the function is not read. -/
def region? (r : SiteRule) (file : SourceFile) : Option (Option Region) :=
  match r.within with
  | none => some none
  | some name => (FunctionDef.find? file name).map fun f => some (f.startLine, f.endLine)

def inRegion (region : Option Region) (line : Nat) : Bool :=
  region.all fun (first, last) => first ≤ line && line ≤ last

def constructSite (file : SourceFile) (c : Construct) : Site where
  file := file
  line := c.startLine
  matched := c.name.toList
  construct := some c

/-- The place of a row that the pattern matches. The matched text is taken from the line as
written, where that can be cut. -/
def lineSite? (file : SourceFile) (lines : List Text) (p : Pattern) (row : CodeRow) :
    Option Site :=
  (p.find? row.masked).map fun s =>
    let written := (lines[row.number - 1]?).bind (Text.slice? · s.start s.stop)
    { file, line := row.number
      matched := written.getD (Text.slice row.masked s.start s.stop) }

/-- The places in a file, without their surroundings. -/
def locate (r : SiteRule) (file : SourceFile) (rows : List CodeRow) (ms : Markers)
    (region : Option Region) : Except SplitCharacter (List Site) :=
  match r.locator with
  | .lines p =>
      .ok ((rows.filter fun row => inRegion region row.number && row.lineClass.isCode).filterMap
        (lineSite? file file.lines p))
  | .calls name =>
      .ok (((Call.all file name ms).filter fun c =>
          inRegion region c.line && c.lineClass.isCode).map fun c =>
        { file, line := c.line, matched := name.toList, call := some c })
  | .function name =>
      .ok ((FunctionDef.find? file name).map fun d => constructSite file (.function d)).toList
  | .struct name => do
      let d ← StructDef.find? file name ms
      return (d.map fun d => constructSite file (.struct d)).toList
  | .enum name =>
      .ok ((EnumDef.find? file name ms).map fun d => constructSite file (.enum d)).toList

/-- The first and the last line of the surroundings of a place. -/
def extent (r : SiteRule) (s : Site) (region : Option Region) : Region :=
  match r.neighborhood with
  | .line => (s.line, s.line)
  | .window before after =>
      match region with
      | none => (s.line - before, s.line + after)
      | some (first, last) => (max (s.line - before) first, min (s.line + after) last)
  | .body =>
      match s.construct, region with
      | some c, _ => (c.startLine, c.endLine)
      | none, some region => region
      | none, none => (1, s.file.lineCount)

def withContext (r : SiteRule) (rows : List CodeRow) (region : Option Region) (s : Site) :
    Site :=
  let (first, last) := r.extent s region
  let around := rows.filter fun row =>
    first ≤ row.number && row.number ≤ last && row.lineClass.isExecutable
  { s with context := around.map fun row => (row.number, row.masked) }

/-- The places in a file, or `none` if the file is not read. -/
def sitesIn (r : SiteRule) (file : SourceFile) (ms : Markers) :
    Except SplitCharacter (Option (List Site)) :=
  match r.region? file with
  | none => .ok none
  | some region => do
      let rows := file.codeRows ms
      let sites ← r.locate file rows ms region
      return some (sites.map (r.withContext rows region))

/-- The places in each file of the scope that is read. -/
def sitesByFile (r : SiteRule) (c : Corpus) (ms : Markers) :
    Except SplitCharacter (List (List Site)) := do
  let read ← (c.inScope r.scope).mapM (r.sitesIn · ms)
  return read.filterMap fun sites => sites

/-- All places, in corpus order. -/
def sites (r : SiteRule) (c : Corpus) (ms : Markers) : Except SplitCharacter (List Site) := do
  return (← r.sitesByFile c ms).flatten

/-- The report of a place. -/
def finding (r : SiteRule) (s : Site) : Finding :=
  let values : TemplateValues :=
    { name := (r.locator.target?.getD r.name).toList
      matched := s.matched
      file := s.file.path.toList
      line := (toString s.line).toList }
  { path := s.file.path, line := some s.line, severity := r.severity, ruleId := r.id
    check := r.check, message := String.ofList (r.message.render values), fix := r.fix
    : Finding }.withSnippet s.lineText

/-- The message about what is absent, given the places in the files that were read. -/
def absent? (r : SiteRule) (read : List (List Site)) : Option String :=
  match r.within, read with
  | some name, [] => some s!"function '{name}' not found"
  | _, _ =>
      match r.locator.construct? with
      | some (kind, name) =>
          if read.all List.isEmpty then some s!"{kind} '{name}' not found" else none
      | none => none

/-- Reports the places at which the condition fails, and what is absent. -/
def findings (r : SiteRule) (c : Corpus) (ms : Markers) :
    Except SplitCharacter (List Finding) := do
  let read ← r.sitesByFile c ms
  let missing := (r.absent? read).bind (r.onMissing.finding? r.id r.scope.describe ·)
  return ((read.flatten.filter (!r.condition ·)).map r.finding) ++ missing.toList

end SiteRule

/-! ## Building -/

namespace Pattern

def compileOrFail (source : String) : Except Error Pattern :=
  (compile source).mapError fun _ => .badPattern source

end Pattern

namespace FileScope

def compileOrFail (sources : List String) : Except Error FileScope :=
  (compile sources).mapError .badGlob

end FileScope

/-- The parts of a site rule, with what holds for those that are not given. -/
structure SitePlan where
  id : String
  name : String
  description : Option String := none
  severity : Severity := .fail
  onMissing : MissingPolicy := .skip
  files : List String := SiteRule.standardFiles
  locator : Option Locator := none
  neighborhood : Neighborhood := .line
  within : Option String := none
  condition : Site → Bool := fun _ => false
  message : String := SiteRule.standardMessage
  check : Option String := none
  fix : Option String := none

namespace SitePlan

def build (p : SitePlan) : Except Error SiteRule :=
  match p.locator with
  | none => .error (.rule p.id .noLocator)
  | some locator => do
      return {
        id := p.id, name := p.name, description := p.description, severity := p.severity
        onMissing := p.onMissing, scope := ← FileScope.compileOrFail p.files, locator
        neighborhood := p.neighborhood, within := p.within, condition := p.condition
        message := ⟨p.message.toList⟩, check := p.check, fix := p.fix }

end SitePlan
end StructuralRules
