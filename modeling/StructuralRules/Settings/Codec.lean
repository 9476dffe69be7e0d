import StructuralRules.Data.Reader
import StructuralRules.Settings.Basic

/-!
# Settings as data

Each part of the settings is written as a table and read from one. Reading fills
in what is absent and passes over keys it does not know. The fields of a rule's
kind stand beside the fields that all rules have.
-/

set_option autoImplicit false

namespace StructuralRules

open Data

def Data.strings (l : List String) : Data :=
  .list (l.map .string)

def Data.readStrings : Reader (List String) :=
  readList readString

namespace Severity

def choices : List (String × Severity) :=
  [("fail", .fail), ("warn", .warn), ("info", .info)]

end Severity

namespace MissingPolicy

def name : MissingPolicy → String
  | .skip => "skip"
  | .info => "info"
  | .warn => "warn"
  | .fail => "fail"

def choices : List (String × MissingPolicy) :=
  [("skip", .skip), ("info", .info), ("warn", .warn), ("fail", .fail)]

end MissingPolicy

namespace SourceRoot

def toData (r : SourceRoot) : Data :=
  .table [("dir", .string r.dir), ("extensions", strings r.extensions)]

def ofData? : Reader SourceRoot := fun d => do
  let es ← readEntries false ["dir", "extensions"] d
  return ⟨← required es "dir" readString, ← required es "extensions" readStrings⟩

end SourceRoot

namespace ScanSettings

def toData (s : ScanSettings) : Data :=
  .table
    [("roots", .list (s.roots.map (·.toData))), ("exclude_dirs", strings s.excludeDirs),
     ("exclude", strings s.exclude), ("follow_links", .bool s.followLinks)]

def ofData? : Reader ScanSettings := fun d => do
  let es ← readEntries false ["roots", "exclude_dirs", "exclude", "follow_links"] d
  let standard : ScanSettings := {}
  return {
    roots := ← orElse es "roots" standard.roots (readList SourceRoot.ofData?)
    excludeDirs := ← orElse es "exclude_dirs" standard.excludeDirs readStrings
    exclude := ← orElse es "exclude" [] readStrings
    followLinks := ← orElse es "follow_links" false readBool }

end ScanSettings

namespace Markers

def toData (ms : Markers) : Data :=
  .table [("exception_markers", strings ms)]

def ofData? : Reader Markers := fun d => do
  let es ← readEntries false ["exception_markers"] d
  orElse es "exception_markers" standard readStrings

end Markers

namespace EngineOptions

def toData (o : EngineOptions) : Data :=
  .table
    [("parallel", .bool o.parallel), ("timeout_ms", (o.timeoutMs.map .nat).getD .null)]

def ofData? : Reader EngineOptions := fun d => do
  let es ← readEntries false ["parallel", "timeout_ms"] d
  return ⟨← orElse es "parallel" false readBool, ← maybe es "timeout_ms" readNat⟩

end EngineOptions

namespace ForbiddenPattern

def toData (p : ForbiddenPattern) : Data :=
  .table [("regex", .string p.regex), ("message", .string p.message)]

def ofData? : Reader ForbiddenPattern := fun d => do
  let es ← readEntries true ["regex", "message"] d
  return ⟨← required es "regex" readString, ← required es "message" readString⟩

end ForbiddenPattern

namespace BodyRequirement

def toData (r : BodyRequirement) : Data :=
  .table <|
    [("name", .string r.name), ("pattern", .string r.pattern)] ++
    optionalEntry "message" (r.message.map .string)

def ofData? : Reader BodyRequirement := fun d => do
  let es ← readEntries true ["name", "pattern", "message"] d
  return ⟨← required es "name" readString, ← required es "pattern" readString,
    ← maybe es "message" readString⟩

end BodyRequirement

namespace CallPair

def toData (p : CallPair) : Data :=
  .table [("open", .string p.opening), ("close", .string p.closing)]

def ofData? : Reader CallPair := fun d => do
  let es ← readEntries true ["open", "close"] d
  return ⟨← required es "open" readString, ← required es "close" readString⟩

end CallPair

namespace RuleKind

/-- The fields of a kind, beside the name of the kind. -/
def entries : RuleKind → List (String × Data)
  | .forbidden patterns => [("patterns", .list (patterns.map (·.toData)))]
  | .enumCoverage enum enumFiles function argument valueFilter =>
      [("enum_name", .string enum), ("enum_files", strings enumFiles),
       ("function", .string function), ("argument", .nat argument)] ++
      optionalEntry "value_filter" (valueFilter.map .string)
  | .window function anchor required before after message =>
      optionalEntry "function" (function.map .string) ++
      [("anchor", .string anchor), ("required", .string required), ("before", .nat before),
       ("after", .nat after)] ++
      optionalEntry "message" (message.map .string)
  | .functionBody function requirements order =>
      [("function", .string function), ("requires", .list (requirements.map (·.toData))),
       ("order", .list (order.map fun (a, b) => strings [a, b]))]
  | .structField struct field type =>
      [("struct_name", .string struct), ("field", .string field)] ++
      optionalEntry "field_type" (type.map .string)
  | .pairedCalls pairs => [("pairs", .list (pairs.map (·.toData)))]

/-- The kind with a name, from the entries of a rule. -/
def ofEntries? (es : List (String × Data)) : String → Option RuleKind
  | "forbidden" => return .forbidden (← required es "patterns" (readList ForbiddenPattern.ofData?))
  | "enum-coverage" =>
      return .enumCoverage (← required es "enum_name" readString)
        (← orElse es "enum_files" standardEnumFiles readStrings)
        (← required es "function" readString) (← orElse es "argument" 0 readNat)
        (← maybe es "value_filter" readString)
  | "window" =>
      return .window (← maybe es "function" readString) (← required es "anchor" readString)
        (← required es "required" readString) (← orElse es "before" standardWindow readNat)
        (← orElse es "after" standardWindow readNat) (← maybe es "message" readString)
  | "function-body" =>
      return .functionBody (← required es "function" readString)
        (← orElse es "requires" [] (readList BodyRequirement.ofData?))
        (← orElse es "order" [] (readList (readPair readString)))
  | "struct-field" =>
      return .structField (← required es "struct_name" readString)
        (← required es "field" readString) (← maybe es "field_type" readString)
  | "paired-calls" => return .pairedCalls (← required es "pairs" (readList CallPair.ofData?))
  | _ => none

end RuleKind

namespace RuleSpec

def toData (s : RuleSpec) : Data :=
  .table <|
    [("id", .string s.id), ("name", .string s.name)] ++
    optionalEntry "description" (s.description.map .string) ++
    [("severity", .string s.severity.name), ("on_missing", .string s.onMissing.name),
     ("files", strings s.files)] ++
    optionalEntry "fix" (s.fix.map .string) ++ [("kind", .string s.kind.name)] ++ s.kind.entries

/-- The keys that all rules have. -/
def commonKeys : List String :=
  ["id", "name", "description", "severity", "on_missing", "files", "fix"]

/-- A rule is a table. All that its kind may read has to fit into words. -/
def ofData? : Reader RuleSpec
  | .table es => do
      let kindEntries := es.filter fun (k, _) => !commonKeys.contains k
      if !fitWordsEntries kindEntries then none
      let standard := SiteRule.standardFiles
      return {
        id := ← required es "id" readString
        name := ← required es "name" readString
        description := ← maybe es "description" readString
        severity := ← orElse es "severity" .fail (readChoice Severity.choices)
        onMissing := ← orElse es "on_missing" .skip (readChoice MissingPolicy.choices)
        files := ← orElse es "files" standard readStrings
        fix := ← maybe es "fix" readString
        kind := ← RuleKind.ofEntries? kindEntries (← required es "kind" readString) }
  | _ => none

end RuleSpec

namespace Settings

def toData (s : Settings) : Data :=
  .table
    [("scanner", s.scan.toData), ("classifier", s.markers.toData), ("engine", s.engine.toData),
     ("rules", .list (s.rules.map (·.toData)))]

def ofData? : Reader Settings
  | .table es => do
      return {
        scan := ← orElse es "scanner" {} ScanSettings.ofData?
        markers := ← orElse es "classifier" Markers.standard Markers.ofData?
        engine := ← orElse es "engine" {} EngineOptions.ofData?
        rules := ← orElse es "rules" [] (readList RuleSpec.ofData?) }
  | _ => none

end Settings
end StructuralRules
