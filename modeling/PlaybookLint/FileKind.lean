import PlaybookLint.Node
import PlaybookLint.Path

/-!
# Kinds of files

What a file is for, as far as the rules are concerned: the directory that holds it says, or else its
content.
-/

namespace PlaybookLint

/-- What a file is for. -/
inductive FileKind where
  | tasks
  | handlers
  | playbook
  | vars
  /-- The description of a role. -/
  | metadata
  /-- A mapping without a more specific meaning. -/
  | yaml
  /-- A sequence without a more specific meaning. -/
  | yamlSequence
  /-- A scalar. -/
  | unsupported
  deriving Repr, DecidableEq, Inhabited

namespace FileKind

/-- All kinds. -/
def all : List FileKind :=
  [.tasks, .handlers, .playbook, .vars, .metadata, .yaml, .yamlSequence, .unsupported]

/-- The name of a kind. -/
def name : FileKind → String
  | .tasks => "tasks"
  | .handlers => "handlers"
  | .playbook => "playbook"
  | .vars => "vars"
  | .metadata => "meta"
  | .yaml => "yaml"
  | .yamlSequence => "yaml-sequence"
  | .unsupported => "unsupported"

/-- The kind with a name. -/
def ofName? (name : String) : Option FileKind :=
  all.find? fun kind => kind.name = name

/-- Whether a file of this kind holds no tasks, so that its markers silence rules for the whole
file. -/
def isFlat : FileKind → Bool
  | .vars | .metadata | .yaml | .yamlSequence => true
  | _ => false

/-- The directories whose files hold variables. -/
def varsDirectories : List String :=
  ["vars", "defaults", "group_vars", "host_vars"]

/-- The keys that only plays have. -/
def playKeys : List String :=
  ["hosts", "import_playbook", "ansible.builtin.import_playbook"]

/-- The kind that a directory gives to a file with this stem. -/
def ofDirectory? (stem : Option String) (directory : String) : Option FileKind :=
  if directory = "tasks" then some .tasks
  else if directory = "handlers" then some .handlers
  else if directory = "meta" && stem = some "main" then some .metadata
  else if varsDirectories.contains directory then some .vars
  else none

/-- Whether a node has a key that only plays have. -/
def isPlay (n : Tree α) : Bool :=
  playKeys.any fun key => (n.get? key).isSome

/-- The kind of a file whose directories say nothing. -/
def ofContent : Tree α → FileKind
  | .sequence _ _ items => if items.any isPlay then .playbook else .yamlSequence
  | .mapping .. => .yaml
  | .scalar .. => .unsupported

/-- The kind of the file at a path: the innermost directory that says something decides. -/
def detect (path : Path) (content : Node) : FileKind :=
  (path.directories.reverse.findSome? (ofDirectory? path.stem?)).getD (ofContent content)

end FileKind

/-- The role that the file at a path belongs to: the directory inside the innermost `roles`
directory. -/
def roleOf (path : Path) : Option String :=
  let outward := path.directories.reverse
  match outward.findIdx? (· = "roles") with
  | some (i + 1) => outward[i]?
  | _ => none

end PlaybookLint
