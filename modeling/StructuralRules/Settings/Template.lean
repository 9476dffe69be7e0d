/-!
# A settings file to start from
-/

set_option autoImplicit false

namespace StructuralRules.Settings

def templateLines : List String :=
  [
    "# fitness-guard configuration file",
    "",
    "[scanner]",
    "# Source roots relative to the scan root, each with the extensions collected from it",
    "roots = [",
    "    \x7b dir = \"src\", extensions = [\"c\", \"h\"] \x7d,",
    "    \x7b dir = \"include\", extensions = [\"h\"] \x7d,",
    "]",
    "",
    "# Directory names skipped anywhere below a root",
    "exclude_dirs = [\"external\", \"vendor\", \"third_party\"]",
    "",
    "# Extra glob exclusions, relative to the scan root",
    "# exclude = [\"src/generated/**\"]",
    "",
    "# follow_links = false",
    "",
    "[classifier]",
    "# A line containing one of these, or directly following one, is exempt from rules",
    "exception_markers = [\"// EXCEPTION:\", \"/* EXCEPTION:\", \"// FFI:\", \"/* FFI:\"]",
    "",
    "[engine]",
    "# parallel = false",
    "# timeout_ms = 5000",
    "",
    "# Every rule has: id, name, kind, and optionally description, severity",
    "# (fail | warn | info), on_missing (skip | info | warn | fail), files (globs)",
    "# and fix.",
    "",
    "[[rules]]",
    "id = \"FF-100\"",
    "name = \"No gets()\"",
    "kind = \"forbidden\"",
    "fix = \"Use fgets() with an explicit buffer size\"",
    "patterns = [\x7b regex = '\\bgets\\s*\\(', message = \"gets() cannot be used safely\" \x7d]",
    "",
    "# [[rules]]",
    "# id = \"FF-001\"",
    "# name = \"Every event is triggered\"",
    "# kind = \"enum-coverage\"",
    "# enum_name = \"GameEvent\"",
    "# function = \"trigger_event\"",
    "# argument = 1",
    "# files = [\"src/**/*.c\"]",
    "",
    "# [[rules]]",
    "# id = \"FF-002\"",
    "# name = \"Modifiers applied before payout\"",
    "# kind = \"window\"",
    "# anchor = 'gold\\s*\\+='",
    "# required = 'apply_modifiers\\('",
    "# before = 30",
    "# after = 0",
    "",
    "# [[rules]]",
    "# id = \"FF-015\"",
    "# name = \"Destructor shape\"",
    "# kind = \"function-body\"",
    "# function = \"game_destroy\"",
    "# on_missing = \"warn\"",
    "# requires = [",
    "#     \x7b name = \"null-check\", pattern = 'if\\s*\\(\\s*!\\s*g\\s*\\)' \x7d,",
    "#     \x7b name = \"free-self\", pattern = '\\bfree\\(\\s*g\\s*\\)' \x7d,",
    "# ]",
    "",
    "# [[rules]]",
    "# id = \"FF-005\"",
    "# name = \"Choice options are typed\"",
    "# kind = \"struct-field\"",
    "# struct_name = \"PendingChoice\"",
    "# field = \"options\"",
    "# field_type = \"ChoiceOption*\"",
    "",
    "# [[rules]]",
    "# id = \"FF-014\"",
    "# name = \"Audio init has a shutdown\"",
    "# kind = \"paired-calls\"",
    "# pairs = [\x7b open = \"audio_init\", close = \"audio_shutdown\" \x7d]"
  ]

/-- The text of a new settings file. -/
def template : String :=
  String.join (templateLines.map (· ++ "\n"))

end StructuralRules.Settings
