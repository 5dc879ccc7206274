import PlaybookLint.Config
import PlaybookLint.Rule
import PlaybookLint.Rule.Tasks

/-!
# Linting a document

All rules in the order in which they are listed and run, and the findings of some rules about a
document, without those that the author silenced.

## Main definitions

* `Rule.catalog` - what there is to know about every rule.
* `Rule.enabled` - the rules that a configuration asks for.
* `Finding.loadFailure`, `Finding.schemaFailure` - findings about a file as such.
* `Rule.run` - the findings of one rule that the lists of suppressions let through.
* `Document.lint` - the findings of all rules that nothing silences.

## Design notes

A finding can be silenced in two ways: by the list of the task, or of the whole file, that it is
about, and by a marker on its line.
-/

namespace PlaybookLint.Rule

/-! ## The catalog of rules -/

/-- What there is to know about every rule, whether it runs or not. -/
def catalog : List RuleInfo :=
  [QualifiedName.info, Handler.info, LatestPackage.info, Naming.info]

/-- The rule with a name. -/
def findInfo? (id : String) : Option RuleInfo :=
  catalog.find? fun info => info.id = id

/-- The naming rule, if a configuration asks for it. Its pattern has to be one. -/
def enabledNaming (config : RuleConfig) : Except Failure (List Rule) :=
  if config.naming then
    match Naming.ofPattern? config.namingPattern with
    | some naming => .ok [naming.rule]
    | none => .error (.badPattern config.namingPattern)
  else .ok []

/-- The rules that a configuration asks for. -/
def enabled (config : RuleConfig) : Except Failure (List Rule) :=
  (enabledNaming config).map fun naming =>
    (if config.qualifiedName then [QualifiedName.rule] else []) ++
      (if config.handler then [Handler.rule] else []) ++
      (if config.latestPackage then [LatestPackage.rule] else []) ++ naming

end PlaybookLint.Rule

namespace PlaybookLint

/-! ## Linting a document -/

/-- The finding for a file that is not YAML. The message ends where a reader of YAML would tell in
words of its own what is wrong: an error has a kind and a place, and these words are left out. -/
def Finding.loadFailure (file : Path) : Finding :=
  ⟨file, 1, "load-failure", "load-failure", .error, "YAML parse error"⟩

/-- The finding for a document that does not have the shape that its kind promises. -/
def Finding.schemaFailure (doc : Document) (e : SchemaError) : Finding :=
  ⟨doc.path, 1, "schema", "schema[" ++ doc.kind.name ++ "]", .error, e.message⟩

namespace Rule

/-- What a rule says about a document as a whole and the list of the whole file does not silence. -/
def runOnDocument (rule : Rule) (doc : Document) : List Finding :=
  match rule.onDocument doc with
  | .ok found => found.filter fun f => !f.isListed doc.data.silenced
  | .error e => [.schemaFailure doc e]

/-- What a rule says about a task and the task does not silence. -/
def runOnTask (rule : Rule) (doc : Document) (task : Task) : List Finding :=
  match rule.onTask doc task with
  | .pass => []
  | .violation =>
    if task.isSkipped rule.info.id rule.info.id then [] else [rule.info.violation doc task.line]
  | .findings found => found.filter fun f => !task.isSkipped f.rule f.tag

/-- The findings of a rule that the lists of suppressions let through. -/
def run (rule : Rule) (doc : Document) : List Finding :=
  rule.runOnDocument doc ++ doc.plays.flatMap (rule.onPlay doc) ++
    doc.tasks.flatMap (rule.runOnTask doc)

end Rule

/-- Whether a marker on its line silences a finding. -/
def Finding.isLineSuppressed (lineSkips : SuppressionMap) (f : Finding) : Bool :=
  lineSkips.isSuppressed f.line f.tag f.rule

/-- The findings of some rules that nothing silences. -/
def Document.lint (rules : List Rule) (doc : Document) : List Finding :=
  (rules.flatMap fun rule => rule.run doc).filter fun f => !f.isLineSuppressed doc.lineSkips

end PlaybookLint
