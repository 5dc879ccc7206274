import PlaybookLint.Pattern.Reading
import PlaybookLint.Rule
import PlaybookLint.Text.Unicode

/-!
# Names of variables

Variables are to have names that work everywhere, follow a pattern, and begin with the role that
they belong to. Names are checked wherever a play, a task or a file of variables defines them.

## Main definitions

* `NameFault` - what can be wrong with a name.
* `RolePrefix` - the role that a name is to begin with.
* `Naming.fault?` - what is wrong with a name.
* `Naming.rule` - the rule.
-/

namespace PlaybookLint.Rule

/-! ### Texts -/

/-- Whether an end of a template occurs in a text. -/
def closesTemplate : List Char → Bool
  | c :: d :: cs => ((c = '%' || c = '#' || c = '\x7d') && d = '\x7d') || closesTemplate (d :: cs)
  | _ => false

/-- Whether a text holds the beginning of a template and later an end of one. -/
def hasTemplate : List Char → Bool
  | c :: d :: cs =>
    (c = '\x7b' && (d = '\x7b' || d = '%' || d = '#') && closesTemplate cs) ||
      hasTemplate (d :: cs)
  | _ => false

/-- Whether a text is three words with dots between them. -/
def isQualifiedName (cs : List Char) : Bool :=
  match Text.splitAll '.' cs with
  | [a, b, c] => Text.isWord a && Text.isWord b && Text.isWord c
  | _ => false

/-- Whether a text is one word, or three with dots between them. -/
def isNameOrQualified (cs : List Char) : Bool :=
  Text.isWord cs || isQualifiedName cs

/-! ### Lists of names -/

/-- Keys that loaders add to say where something was read. -/
def annotationKeys : List String :=
  ["__file__", "__line__"]

/-- Special variables that an author may set. -/
def settableNames : List String := [
  "ansible_become_user", "ansible_connection", "ansible_facts", "ansible_host",
  "ansible_python_interpreter", "ansible_remote_tmp", "ansible_user"]

/-- Special variables that nobody may set. -/
def readOnlyNames : List String := [
  "ansible_check_mode", "ansible_collection_name", "ansible_config_file",
  "ansible_dependent_role_names", "ansible_diff_mode", "ansible_forks", "ansible_index_var",
  "ansible_inventory_sources", "ansible_limit", "ansible_local", "ansible_loop",
  "ansible_loop_var", "ansible_parent_role_names", "ansible_parent_role_paths",
  "ansible_play_batch", "ansible_play_hosts", "ansible_play_hosts_all", "ansible_play_name",
  "ansible_play_role_names", "ansible_playbook_python", "ansible_role_name",
  "ansible_role_names", "ansible_run_tags", "ansible_search_path", "ansible_skip_tags",
  "ansible_verbosity", "ansible_version", "group_names", "groups", "hostvars", "inventory_dir",
  "inventory_file", "inventory_hostname", "inventory_hostname_short", "omit", "play_hosts",
  "playbook_dir", "role_name", "role_names", "role_path"]

/-- Attributes of plays, roles, blocks and tasks. -/
def reservedNames : List String := [
  "action", "always", "any_errors_fatal", "args", "async", "become", "become_exe", "become_flags",
  "become_method", "become_user", "block", "changed_when", "check_mode", "collections",
  "connection", "debugger", "delay", "delegate_facts", "delegate_to", "diff", "environment",
  "fact_path", "failed_when", "force_handlers", "gather_facts", "gather_subset",
  "gather_timeout", "handlers", "hosts", "ignore_errors", "ignore_unreachable", "include",
  "local_action", "loop", "loop_control", "max_fail_percentage", "module_defaults", "name",
  "no_log", "notify", "order", "poll", "port", "post_tasks", "pre_tasks", "register",
  "remote_user", "rescue", "retries", "roles", "run_once", "serial", "strategy", "tags", "tasks",
  "throttle", "timeout", "until", "vars", "vars_files", "vars_prompt", "when", "with_"]

/-- Keywords of the language in which templates are evaluated. -/
def templateKeywords : List String := [
  "False", "None", "True", "and", "as", "assert", "async", "await", "break", "class", "continue",
  "def", "del", "elif", "else", "except", "finally", "for", "from", "global", "if", "import",
  "in", "is", "lambda", "nonlocal", "not", "or", "pass", "raise", "return", "try", "while",
  "with", "yield"]

/-- Keys of a role in a play that are no variables of the role. -/
def roleKeywords : List String := [
  "any_errors_fatal", "become", "become_exe", "become_flags", "become_method", "become_user",
  "check_mode", "collections", "connection", "debugger", "delegate_facts", "delegate_to", "diff",
  "environment", "ignore_errors", "ignore_unreachable", "module_defaults", "name", "no_log",
  "port", "remote_user", "role", "run_once", "tags", "throttle", "timeout", "vars", "when"]

/-! ### Role prefixes -/

/-- The role that the names of variables are to begin with. -/
structure RolePrefix where
  value : String
  /-- Whether the role was called by a qualified name, which lifts the check of the pattern. -/
  isQualified : Bool
  deriving Repr, DecidableEq, Inhabited

namespace RolePrefix

/-- A role by its own name. -/
def ofRole (name : String) : RolePrefix :=
  ⟨name, false⟩

/-- A role as it is referred to: by its name, by a path to it, or by a qualified name. -/
def ofReference (reference : String) : RolePrefix :=
  let cs := reference.toList
  ⟨if cs.contains '.' then "" else String.ofList (Text.afterLast '/' cs), isQualifiedName cs⟩

/-- Whether a name begins with the role and an underscore, once its own leading underscores are
dropped. -/
def begins (role : RolePrefix) (name : List Char) : Bool :=
  (Text.dropPrefix? (role.value.toList ++ ['_']) (name.dropWhile (· = '_'))).isSome

/-- Whether names are held to the role: it is a word or a qualified name, and no template. -/
def isBinding (role : RolePrefix) : Bool :=
  !hasTemplate role.value.toList && isNameOrQualified role.value.toList

end RolePrefix

/-! ### Faults -/

/-- What can be wrong with a name. -/
inductive NameFault where
  | nonString
  | nonAscii (name : String)
  | keyword (name : String)
  | reserved (name : String)
  | readOnly (name : String)
  /-- The name does not match the pattern of this spelling. -/
  | pattern (name spelling : String)
  /-- The name does not begin with this role. -/
  | rolePrefix (role : String)
  deriving Repr, DecidableEq, Inhabited

namespace NameFault

/-- The name of the check that fails. -/
def check : NameFault → String
  | .nonString => "non-string"
  | .nonAscii _ => "non-ascii"
  | .keyword _ => "no-keyword"
  | .reserved _ => "no-reserved"
  | .readOnly _ => "read-only"
  | .pattern .. => "pattern"
  | .rolePrefix _ => "no-role-prefix"

/-- The fault in words. -/
def message : NameFault → String
  | .nonString => "Variables names must be strings."
  | .nonAscii name => "Variables names must be ASCII. (" ++ name ++ ")"
  | .keyword name => "Variables names must not be Python keywords. (" ++ name ++ ")"
  | .reserved name => "Variables names must not be Ansible reserved names. (" ++ name ++ ")"
  | .readOnly name => "This special variable is read-only. (" ++ name ++ ")"
  | .pattern name spelling =>
    "Variables names should match " ++ spelling ++ " regex. (" ++ name ++ ")"
  | .rolePrefix role =>
    "Variables names from within roles should use " ++ role ++ "_ as a prefix."

end NameFault

/-- How variables are to be named. -/
structure Naming where
  /-- The pattern as it is spelled. -/
  spelling : String
  pattern : Pattern
  deriving Repr, Inhabited

namespace Naming

/-- What there is to know about the rule. -/
def info : RuleInfo where
  id := "var-naming"
  description := "All variables should be named using only lowercase and underscores."
  severity := .error
  tags := ["idiom"]
  checks := [
    ("var-naming[non-string]", "Variables names must be strings."),
    ("var-naming[non-ascii]", "Variables names must be ASCII."),
    ("var-naming[no-keyword]", "Variables names must not be Python keywords."),
    ("var-naming[no-reserved]", "Variables names must not be Ansible reserved names."),
    ("var-naming[read-only]", "This special variable is read-only."),
    ("var-naming[pattern]", "Variables names should match the configured naming regex."),
    ("var-naming[no-role-prefix]",
      "Variables names from within roles should use the role name as a prefix.")]

/-- The pattern that names follow unless another one is configured. -/
def defaultPattern : String := "^[a-z_][a-z0-9_]*$"

/-- The naming by a pattern, if its spelling is one. -/
def ofPattern? (spelling : String) : Option Naming :=
  (Pattern.read? spelling.toList).map (⟨spelling, ·⟩)

/-- Whether a name begins with a match of the pattern. -/
def accepts (naming : Naming) (name : String) : Bool :=
  naming.pattern.matchesStart name.toList

/-- The fault of a name with respect to a role. -/
def roleFault? (role : RolePrefix) (name : String) : Option NameFault :=
  if !role.begins name.toList && role.isBinding then some (.rolePrefix role.value) else none

/-- What is wrong with a name: the first check that fails. -/
def fault? (naming : Naming) (role : Option RolePrefix) (name : String) : Option NameFault :=
  if annotationKeys.contains name || settableNames.contains name then none
  else if !name.toList.all fun c => c.toNat < 128 then some (.nonAscii name)
  else if templateKeywords.contains name then some (.keyword name)
  else if reservedNames.contains name then some (.reserved name)
  else if readOnlyNames.contains name then some (.readOnly name)
  else if Text.hasPiece ['\x7b', '\x7b'] name.toList then none
  else if !naming.accepts name && !role.any RolePrefix.isQualified then
    some (.pattern name naming.spelling)
  else role.bind fun role => roleFault? role name

/-- What is wrong with a key of a mapping. -/
def keyFault? (naming : Naming) (role : Option RolePrefix) (key : Node) : Option NameFault :=
  match key.string? with
  | some name => naming.fault? role name
  | none => some .nonString

/-! ### Findings -/

/-- The finding for a fault. `source` says where the name was found. -/
def finding (doc : Document) (line : Nat) (fault : NameFault) (source : String) : Finding :=
  info.finding doc line (info.tag fault.check) (fault.message ++ source)

/-- The words that say that a key of variables was found. -/
def varsSource (key : Node) : String :=
  " (vars: " ++ key.text ++ ")"

/-- The findings for the keys of some variables, if they are a mapping. -/
def onKeys (naming : Naming) (doc : Document) (role : Option RolePrefix) (source : Node → String)
    (vars : Option Node) : List Finding :=
  ((vars.map Tree.entries).getD []).filterMap fun (key, _) =>
    (naming.keyFault? role key).map fun fault => finding doc key.line fault (source key)

/-- The role that a document belongs to. -/
def roleOfDocument (doc : Document) : Option RolePrefix :=
  doc.role.map .ofRole

/-- What the rule says about a document: the keys of a file of variables are their names. -/
def onDocument (naming : Naming) (doc : Document) : Except SchemaError (List Finding) :=
  if doc.kind ≠ .vars || !doc.data.isTruthy then .ok []
  else if !doc.data.isMapping then
    .error ⟨doc.path, "content of vars file is not a mapping"⟩
  else .ok (naming.onKeys doc (roleOfDocument doc) varsSource (some doc.data))

/-- What the rule says about a role of a play: its parameters and its variables belong to it. -/
def onRole (naming : Naming) (doc : Document) (role : Node) : List Finding :=
  let reference :=
    (((role.get? "role").orElse fun _ => role.get? "name").bind Tree.string?).getD ""
  let owner := RolePrefix.ofReference reference
  let parameters := role.entries.filter fun (key, _) => !key.string?.any roleKeywords.contains
  (parameters.filterMap fun (key, _) =>
    (naming.keyFault? (some owner) key).map fun fault =>
      finding doc key.line fault (varsSource key)) ++
    naming.onKeys doc (some owner) varsSource (role.get? "vars")

/-- What the rule says about a play. -/
def onPlay (naming : Naming) (doc : Document) (play : Node) : List Finding :=
  naming.onKeys doc none (fun _ => "") (play.get? "vars") ++
    ((play.itemsOf "roles").filter Tree.isMapping).flatMap (naming.onRole doc)

/-- The role that the variables of a task go to: the one that it includes, if it does. -/
def roleOfTask (task : Task) : Option RolePrefix :=
  if task.action.module = "include_role" || task.action.module = "import_role" then
    some (.ofReference (((task.action.arg? "name").bind Tree.string?).getD ""))
  else none

/-- Whether an argument of `set_fact` is no variable. -/
def isFactOption (name : String) : Bool :=
  name.startsWith "__" || name = "cacheable" || name = "_raw_params"

/-- The findings for the variables that a task sets. -/
def onFacts (naming : Naming) (doc : Document) (task : Task) : List Finding :=
  if task.action.module = "set_fact" then
    (task.action.args.filter fun arg => !isFactOption arg.1).filterMap fun (name, _) =>
      (naming.fault? (roleOfDocument doc) name).map fun fault =>
        finding doc task.line fault (" (set_fact: " ++ name ++ ")")
  else []

/-- The findings for the variable that a task puts its result into. -/
def onRegister (naming : Naming) (doc : Document) (task : Task) : List Finding :=
  match (task.get? "register").filter Tree.isTruthy with
  | some name =>
    ((naming.keyFault? (roleOfDocument doc) name).map fun fault =>
      finding doc task.line fault (" (register: " ++ name.text ++ ")")).toList
  | none => []

/-- What the rule says about a task. -/
def onTask (naming : Naming) (doc : Document) (task : Task) : Verdict :=
  let found := naming.onKeys doc (roleOfTask task) varsSource (task.get? "vars") ++
    naming.onFacts doc task ++ naming.onRegister doc task
  if found.isEmpty then .pass else .findings found

/-- The rule for a naming. -/
def rule (naming : Naming) : Rule where
  info := info
  onDocument := naming.onDocument
  onPlay := naming.onPlay
  onTask := naming.onTask

end Naming

end PlaybookLint.Rule
