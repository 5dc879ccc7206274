import PlaybookLint.Document
import PlaybookLint.Finding

/-!
# Rules

What a rule is, and how its findings are made.

## Main definitions

* `RuleInfo` - what there is to know about a rule without running it.
* `Rule` - a rule: what it says about a document, a play and a task.
* `Verdict` - what a rule says about a task.
-/

namespace PlaybookLint

/-- What there is to know about a rule without running it. -/
structure RuleInfo where
  id : String
  /-- A sentence that says what the rule is about. It is also the message of a plain violation. -/
  description : String
  severity : Severity
  tags : List String
  /-- The tags of the checks of the rule, with their descriptions. -/
  checks : List (String × String)
  deriving Repr, DecidableEq, Inhabited

namespace RuleInfo

/-- The tag of a check of the rule. -/
def tag (info : RuleInfo) (check : String) : String :=
  info.id ++ "[" ++ check ++ "]"

/-- The description of the rule or of one of its checks, by tag. -/
def describe? (info : RuleInfo) (tag : String) : Option String :=
  if tag = info.id then some info.description else info.checks.lookup tag

/-- A finding of the rule. -/
def finding (info : RuleInfo) (doc : Document) (line : Nat) (tag message : String) : Finding where
  file := doc.path
  line := line
  rule := info.id
  tag := tag
  severity := info.severity
  message := message

/-- The finding of a plain violation. -/
def violation (info : RuleInfo) (doc : Document) (line : Nat) : Finding :=
  info.finding doc line info.id info.description

end RuleInfo

/-- What a rule says about a task. -/
inductive Verdict where
  | pass
  /-- The task violates the rule as a whole. -/
  | violation
  | findings (findings : List Finding)
  deriving Repr, DecidableEq, Inhabited

/-- A document whose content does not have the shape that its kind promises. -/
structure SchemaError where
  file : Path
  message : String
  deriving Repr, DecidableEq, Inhabited

/-- The error in words. -/
def SchemaError.text (e : SchemaError) : String :=
  e.file.text ++ ": " ++ e.message

/-- A rule. -/
structure Rule where
  info : RuleInfo
  /-- What the rule says about a document as a whole. -/
  onDocument : Document → Except SchemaError (List Finding)
  /-- What the rule says about a play. -/
  onPlay : Document → Node → List Finding
  /-- What the rule says about a task. -/
  onTask : Document → Task → Verdict

/-- A rule that looks at tasks only. -/
def Rule.ofTasks (info : RuleInfo) (onTask : Document → Task → Verdict) : Rule where
  info := info
  onDocument _ := .ok []
  onPlay _ _ := []
  onTask := onTask

end PlaybookLint
