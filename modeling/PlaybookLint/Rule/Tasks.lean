import PlaybookLint.Rule

/-!
# Rules about single tasks

* `Handler` - a task that runs when another one has changed something is to be a handler.
* `LatestPackage` - packages are not to be installed in whatever version is the latest.
* `QualifiedName` - modules are to be called by their full names, `namespace.collection.module`.
-/

namespace PlaybookLint.Rule.Handler

/-! ## Handlers -/

/-- What there is to know about the rule. -/
def info : RuleInfo where
  id := "no-handler"
  description := "Tasks that run when changed should likely be handlers."
  severity := .error
  tags := ["idiom"]
  checks := []

/-- The texts in a condition that ask whether something has changed. -/
def changeSigns : List String :=
  [".changed", "|changed", "[\"changed\"]", "['changed']", "is changed"]

/-- The words that make a condition compound. -/
def connectives : List String :=
  ["and", "or", "not"]

/-- Whether a condition asks for nothing but whether something has changed. -/
def asksForChange (condition : String) : Bool :=
  let cs := condition.toList
  !((Text.words cs).any fun word => connectives.contains (String.ofList word)) &&
    changeSigns.any fun sign => Text.hasPiece sign.toList cs

/-- The condition of a task: a string, or the only item of a list. -/
def condition? (task : Task) : Option String :=
  match task.get? "when" with
  | some (.sequence _ _ [only]) => only.string?
  | some (.sequence ..) => none
  | some node => node.string?
  | none => none

/-- What the rule says about a task. -/
def onTask (_ : Document) (task : Task) : Verdict :=
  if !task.isHandler && (condition? task).any asksForChange then .violation else .pass

/-- The rule. -/
def rule : Rule :=
  .ofTasks info onTask

end PlaybookLint.Rule.Handler

namespace PlaybookLint.Rule.LatestPackage

/-! ## Latest packages -/

/-- What there is to know about the rule. -/
def info : RuleInfo where
  id := "package-latest"
  description := "Package installs should not use latest."
  severity := .warning
  tags := ["idempotency"]
  checks := []

/-- The modules that install packages. -/
def packageManagers : List String := [
  "apk", "apt", "bower", "bundler", "dnf", "easy_install", "gem", "homebrew", "jenkins_plugin",
  "npm", "openbsd_package", "openbsd_pkg", "package", "pacman", "pear", "pip", "pkg5", "pkgutil",
  "portage", "slackpkg", "sorcery", "swdepot", "win_chocolatey", "yarn", "yum", "zypper"]

/-- The arguments that bound an upgrade to the latest version. -/
def pinningArgs : List String :=
  ["version", "update_only", "only_upgrade", "download_only"]

/-- Whether an action installs the latest version of a package without a bound. -/
def installsLatest (action : Action) : Bool :=
  packageManagers.contains action.module && !pinningArgs.any action.argIsTruthy &&
    (action.arg? "state").bind Tree.string? = some "latest"

/-- What the rule says about a task. -/
def onTask (_ : Document) (task : Task) : Verdict :=
  if installsLatest task.action then .violation else .pass

/-- The rule. -/
def rule : Rule :=
  .ofTasks info onTask

end PlaybookLint.Rule.LatestPackage

namespace PlaybookLint.Rule.QualifiedName

/-! ## Qualified names -/

/-- What there is to know about the rule. -/
def info : RuleInfo where
  id := "fqcn"
  description := "Use FQCN for all actions."
  severity := .error
  tags := ["formatting"]
  checks := [
    ("fqcn[action-core]", "Use FQCN for builtin actions, e.g. `ansible.builtin.copy`."),
    ("fqcn[canonical]",
      "Use `ansible.builtin.*` instead of `ansible.legacy.*` for builtin actions."),
    ("fqcn[action]", "Use FQCN for module actions, `<namespace>.<collection>.<module>`.")]

/-- The modules that every installation has, as `ansible.builtin.<name>`. -/
def builtinModules : List String := [
  "add_host", "apt", "apt_key", "apt_repository", "assemble", "assert", "async_status",
  "blockinfile", "command", "copy", "cron", "debconf", "debug", "dnf", "dpkg_selections", "expect",
  "fail", "fetch", "file", "find", "gather_facts", "get_url", "getent", "git", "group", "group_by",
  "hostname", "import_playbook", "import_role", "import_tasks", "include", "include_role",
  "include_tasks", "include_vars", "iptables", "known_hosts", "lineinfile", "meta", "package",
  "package_facts", "pause", "ping", "pip", "raw", "reboot", "replace", "rpm_key", "script",
  "service", "service_facts", "set_fact", "set_stats", "setup", "shell", "slurp", "stat",
  "subversion", "systemd", "sysvinit", "tempfile", "template", "unarchive", "uri", "user",
  "wait_for", "wait_for_connection", "yum", "yum_repository"]

/-- What a name has to have to be one of the old names of the modules that every installation has.
-/
def legacyStart : List Char := "ansible.legacy.".toList

/-- The module that an old name stands for. -/
def legacyModule? (name : String) : Option String :=
  ((Text.dropPrefix? legacyStart name.toList).map String.ofList).filter builtinModules.contains

/-- Whether a name has a namespace and a collection. -/
def isQualified (name : String) : Bool :=
  decide (2 ≤ name.toList.count '.')

/-- What is wrong with the name of a module: the check that fails, and a message. -/
def problem? (name : String) : Option (String × String) :=
  if builtinModules.contains name then
    some ("action-core", "Use FQCN for builtin module actions (" ++ name ++ ").")
  else
    match legacyModule? name with
    | some short =>
      some ("canonical", "You should use canonical module name `ansible.builtin." ++ short ++
        "` instead of `" ++ name ++ "`.")
    | none =>
      if isQualified name then none
      else some ("action", "Use FQCN for module actions (" ++ name ++ ").")

/-- What the rule says about a task. Tasks without a module, and those that contain others, pass. -/
def onTask (doc : Document) (task : Task) : Verdict :=
  if task.action.written = "" || task.isContainer then .pass
  else
    match problem? task.action.written with
    | some (check, message) =>
      .findings [info.finding doc task.line (info.tag check) message]
    | none => .pass

/-- The rule. -/
def rule : Rule :=
  .ofTasks info onTask

end PlaybookLint.Rule.QualifiedName
