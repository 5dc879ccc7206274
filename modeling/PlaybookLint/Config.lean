import PlaybookLint.Marker
import PlaybookLint.Path
import PlaybookLint.Rule.Naming
import PlaybookLint.Toml.Reader

/-!
# Configurations

What an author can choose: which files are linted, which findings are shown, and which rules run.
The configuration that a table of settings describes: what the table does not mention stays as it is
without a configuration, and keys that mean nothing are passed over. Why a run ends without a
report.

## Main definitions

* `Failure` - why a run ends without a report.
* `Config` - what an author can choose.

## Design notes

A group of settings may also be written as an array that gives its members in order, as far as it
goes. A date in its place gives none of them.
-/

namespace PlaybookLint

/-! ## Failures -/

/-- Why a run ends without a report. -/
inductive Failure where
  /-- The configuration cannot be read. -/
  | unreadableConfig (path : Path)
  /-- The configuration is malformed. -/
  | malformedConfig
  /-- The pattern for names of variables is none. -/
  | badPattern (spelling : String)
  /-- There is nothing to lint. -/
  | noFiles (root : Path)
  deriving Repr, DecidableEq, Inhabited

/-- The failure in words. What a reader of settings or of patterns would add about the cause is left
out. -/
def Failure.message : Failure → String
  | .unreadableConfig path => "Cannot read config " ++ path.text
  | .malformedConfig => "Config parse error"
  | .badPattern spelling => "invalid var_naming pattern `" ++ spelling ++ "`"
  | .noFiles root => "No YAML files found in " ++ root.text

/-! ## Configurations -/

/-- Which rules run, and how. -/
structure RuleConfig where
  qualifiedName : Bool
  handler : Bool
  latestPackage : Bool
  naming : Bool
  /-- The spelling of the pattern for names of variables. -/
  namingPattern : String
  deriving Repr, DecidableEq, Inhabited

/-- All rules run as they come. -/
def RuleConfig.standard : RuleConfig :=
  ⟨true, true, true, true, Rule.Naming.defaultPattern⟩

/-- What an author can choose. -/
structure Config where
  /-- Globs of the files to be linted. -/
  included : List String
  /-- Globs of the directories and files to be left out. -/
  ignored : List String
  /-- Globs of single files to be left out. -/
  ignoredFiles : List String
  /-- Identifiers of findings that are never shown. -/
  skipList : List String
  /-- Identifiers of findings that are shown as information only. -/
  warnList : List String
  rules : RuleConfig
  deriving Repr, DecidableEq, Inhabited

namespace Config

/-- The choices of an author who makes none. -/
def standard : Config where
  included := ["**/*.yml", "**/*.yaml"]
  ignored := [".git", "node_modules", "target", ".venv"]
  ignoredFiles := []
  skipList := []
  warnList := []
  rules := .standard

/-- The configuration with the current names of all identifiers in it. -/
def normalize (config : Config) : Config :=
  { config with
    skipList := config.skipList.map Tag.normalize
    warnList := config.warnList.map Tag.normalize }

end Config

end PlaybookLint

namespace PlaybookLint.Config

/-! ## Configurations as settings -/

open Toml (Item Table)

/-- The members of a group of settings by name. -/
def members? (names : List String) : Item → Option (List (String × Item))
  | .table _ entries => some entries
  | .array items => some (names.zip items)
  | .tables tables => some (names.zip (tables.map (.table .header)))
  | .date => some []
  | _ => none

/-- A setting that is a list of texts. -/
def strings? : Item → Option (List String)
  | .array items => items.mapM fun
    | .string text => some text
    | _ => none
  | _ => none

/-- A setting that is a text. -/
def string? : Item → Option String
  | .string text => some text
  | _ => none

/-- A setting that is true or false. -/
def boolean? : Item → Option Bool
  | .boolean value => some value
  | _ => none

/-- A setting, or what is the case without it; `none` if it is there and of the wrong kind. -/
def setting? (decode : Item → Option β) (key : String) (entries : List (String × Item))
    (standard : β) : Option β :=
  match entries.lookup key with
  | some item => decode item
  | none => some standard

/-- The setting that turns a rule on or off. -/
def switch? (key : String) (entries : List (String × Item)) (standard : Bool) : Option Bool :=
  setting? (fun item => do setting? boolean? "enabled" (← members? ["enabled"] item) standard)
    key entries standard

/-- The settings of the rule about names. -/
def naming? (standard : Bool × String) (item : Item) : Option (Bool × String) := do
  let entries ← members? ["enabled", "pattern"] item
  return (← setting? boolean? "enabled" entries standard.1,
    ← setting? string? "pattern" entries standard.2)

/-- The settings of all rules. -/
def rules? (item : Item) : Option RuleConfig := do
  let standard := RuleConfig.standard
  let entries ← members? ["fqcn", "no_handler", "package_latest", "var_naming"] item
  let qualifiedName ← switch? "fqcn" entries standard.qualifiedName
  let handler ← switch? "no_handler" entries standard.handler
  let latestPackage ← switch? "package_latest" entries standard.latestPackage
  let naming := (standard.naming, standard.namingPattern)
  let (naming, pattern) ← setting? (naming? naming) "var_naming" entries naming
  return ⟨qualifiedName, handler, latestPackage, naming, pattern⟩

/-- The configuration that a table describes. -/
def ofTable? (table : Table) : Option Config := do
  let entries := table.entries
  let standard := Config.standard
  return {
    included := ← setting? strings? "include" entries standard.included
    ignored := ← setting? strings? "ignore" entries standard.ignored
    ignoredFiles := ← setting? strings? "ignore_files" entries standard.ignoredFiles
    skipList := ← setting? strings? "skip_list" entries standard.skipList
    warnList := ← setting? strings? "warn_list" entries standard.warnList
    rules := ← setting? rules? "rules" entries standard.rules }

/-- The configuration that a text spells. -/
def ofText (text : String) : Except Failure Config :=
  match (Table.read? text).bind ofTable? with
  | some config => .ok config.normalize
  | none => .error .malformedConfig

/-- The name of the file in which a configuration is looked for. -/
def fileName : String := ".playlint.toml"

/-- The text of a configuration to start from. -/
def template : String :=
  "\n".intercalate [
    "# playlint configuration",
    "",
    "# Which files to scan (glob patterns, case-insensitive).",
    "include = [\"**/*.yml\", \"**/*.yaml\"]",
    "",
    "# Directories to ignore when scanning",
    "ignore = [\".git\", \"node_modules\", \"target\", \".venv\"]",
    "",
    "# Individual files to skip entirely (supports glob patterns)",
    "# ignore_files = [\"molecule/**\", \"requirements.yml\"]",
    "",
    "# Rule ids or tags that are never reported",
    "# skip_list = [\"fqcn[action-core]\"]",
    "",
    "# Rule ids or tags reported as info instead of failing the run",
    "# warn_list = [\"no-handler\"]",
    "",
    "[rules.package_latest]",
    "enabled = true",
    "",
    "[rules.var_naming]",
    "enabled = true",
    "# Regex every variable name must match",
    "# pattern = \"^[a-z_][a-z0-9_]*$\"",
    "",
    "[rules.no_handler]",
    "enabled = true",
    "",
    "[rules.fqcn]",
    "enabled = true",
    ""]

end PlaybookLint.Config
