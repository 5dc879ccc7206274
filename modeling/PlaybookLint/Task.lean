import PlaybookLint.Node
import PlaybookLint.Task.Flatten
import PlaybookLint.Text.Basic

/-!
# Tasks

A task of a file, as the rules see it: the module that it runs and the arguments that the module
gets. A task can say so in several ways, which all come to the same action. One of them is a short
form of words, which are divided by blanks that do not stand inside quotes; the quotes stay in the
words.

## Main definitions

* `Quoting` - where a character stands with respect to quotes.
* `splitWords` - the words of a text.
* `unquote` - a word without the quotes around it.
* `Action` - a module and its arguments.
* `Action.ofTask` - the action of a task.
* `Task` - a task as the rules see it.

## Design notes

The module is the first key of a task that is no keyword, unless the task has an `action` or a
`local_action`. Arguments are written as a mapping, or as words with an equals sign in them; the
words without one are the free text of the module.
-/

namespace PlaybookLint

/-! ## Words with quotes -/

/-- Where the next character of a text stands. -/
inductive Quoting where
  | outside
  | inside (quote : Char)
  /-- After a backslash between double quotes. -/
  | escaped
  deriving Repr, DecidableEq, Inhabited

namespace Quoting

/-- Where the character after `c` stands. -/
def next : Quoting → Char → Quoting
  | .outside, c => if c = '"' || c = '\'' then .inside c else .outside
  | .inside quote, c =>
    if quote = '"' && c = '\\' then .escaped
    else if c = quote then .outside
    else .inside quote
  | .escaped, _ => .inside '"'

/-- Whether `c` divides words. -/
def isDivider (s : Quoting) (c : Char) : Bool :=
  s = .outside && Text.isBlank c

end Quoting

/-- The word that has been collected, latest character first; none if it is empty. -/
def finishWord (current : List Char) : List (List Char) :=
  if current.isEmpty then [] else [current.reverse]

/-- The words of a text that begins at `s`, after the characters of a first word that have been
collected, latest first. -/
def splitWordsFrom (s : Quoting) (current : List Char) : List Char → List (List Char)
  | [] => finishWord current
  | c :: cs =>
    if s.isDivider c then finishWord current ++ splitWordsFrom s [] cs
    else splitWordsFrom (s.next c) (c :: current) cs

/-- The words of a text. -/
def splitWords (cs : List Char) : List (List Char) :=
  splitWordsFrom .outside [] cs

/-- A text without the quotes of one kind around it, if there are such. -/
def unquoteWith? (quote : Char) : List Char → Option (List Char)
  | c :: cs => if c = quote ∧ cs.getLast? = some quote then some cs.dropLast else none
  | [] => none

/-- A text without the quotes around it. -/
def unquote (cs : List Char) : List Char :=
  ((unquoteWith? '"' cs).orElse fun _ => unquoteWith? '\'' cs).getD cs

/-! ## Actions -/

/-- The keys of a task that do not name the module. -/
def taskKeywords : List String := [
  "action", "always", "any_errors_fatal", "args", "async", "become", "become_exe", "become_flags",
  "become_method", "become_user", "block", "changed_when", "check_mode", "collections",
  "connection", "debugger", "delay", "delegate_facts", "delegate_to", "diff", "environment",
  "failed_when", "ignore_errors", "ignore_unreachable", "listen", "local_action", "loop",
  "loop_control", "module_defaults", "name", "no_log", "notify", "poll", "port", "register",
  "remote_user", "rescue", "retries", "run_once", "tags", "throttle", "timeout", "until", "vars",
  "when"]

/-- Whether a key of a task does not name the module. -/
def isTaskKeyword (key : String) : Bool :=
  taskKeywords.contains key || key.startsWith "with_" || key.startsWith "__"

/-- A module and its arguments. -/
structure Action where
  /-- The module without its namespace. -/
  module : String
  /-- The module as the task writes it. -/
  written : String
  args : List (String × Node)
  deriving Repr, Inhabited

namespace Action

/-- What the action of a task that contains others is called. -/
def containerName : String := "block/always/rescue"

/-- The name of the argument for free text. -/
def freeTextName : String := "_raw_params"

/-- The name of a module without its namespace. -/
def shortName (name : String) : String :=
  String.ofList (Text.afterLast '.' name.toList)

/-- The action that runs a module. -/
def ofModule (name : String) (args : List (String × Node)) : Action :=
  ⟨shortName name, name, args⟩

/-- The argument that a word spells: a name that does not begin with a quote, an equals sign, and a
value. -/
def wordArg? (line : Nat) (word : List Char) : Option (String × Node) :=
  match Text.splitOnce (· = '=') word with
  | some (c :: name, value) =>
    if c = '"' || c = '\'' then none
    else some (String.ofList (c :: name), .string line (String.ofList (unquote value)))
  | _ => none

/-- The arguments that a text on a line spells: those of its words, and after them its free text. -/
def parseArgs (line : Nat) (text : List Char) : List (String × Node) :=
  let words := splitWords text
  let free := words.filter fun word => (wordArg? line word).isNone
  words.filterMap (wordArg? line) ++
    if free.isEmpty then []
    else [(freeTextName, .string line (" ".intercalate (free.map String.ofList)))]

/-- The arguments that the value of a module gives it. -/
def argsOfValue (value : Node) : List (String × Node) :=
  match value with
  | .mapping _ _ entries => entries.filterMap fun (k, v) => k.string?.map (·, v)
  | .scalar line _ (.string text) => parseArgs line text.toList
  | _ => []

/-- The action that an `action` key of a task on a line describes. -/
def ofDescription (line : Nat) (value : Node) : Action :=
  match value.string? with
  | some text =>
    let text := Text.trim text.toList
    let (name, rest) := (Text.splitOnce Text.isBlank text).getD (text, [])
    ofModule (String.ofList name) (parseArgs line rest)
  | none =>
    let name := ((value.get? "module").bind Tree.string?).getD ""
    ofModule name ((argsOfValue value).filter fun arg => arg.1 ≠ "module")

/-- The action that an entry of a task describes, if its key names a module. -/
def ofKeyValue? (entry : Node × Node) : Option Action :=
  match entry.1.string? with
  | some key => if isTaskKeyword key then none else some (ofModule key (argsOfValue entry.2))
  | none => none

/-- The action of a task that contains no others, without what its `args` add. -/
def ofPlainTask (task : Node) : Action :=
  match (task.get? "action").orElse fun _ => task.get? "local_action" with
  | some value => ofDescription task.line value
  | none => (task.entries.findSome? ofKeyValue?).getD (ofModule "" [])

/-- The action of a task. -/
def ofTask (task : Node) : Action :=
  if task.isContainer then ⟨containerName, containerName, []⟩
  else
    let action := ofPlainTask task
    { action with args := action.args ++ ((task.get? "args").map argsOfValue).getD [] }

/-- The value of an argument; of duplicates the last one counts. -/
def arg? (action : Action) (name : String) : Option Node :=
  (action.args.reverse.find? fun arg => arg.1 = name).map Prod.snd

/-- Whether an argument is given a value that counts as true. -/
def argIsTruthy (action : Action) (name : String) : Bool :=
  (action.arg? name).any Tree.isTruthy

end Action

/-! ## Tasks -/

/-- A task, which is a mapping, with its action. -/
structure Task where
  node : Node
  action : Action
  /-- Whether the task runs only when another one asks for it. -/
  isHandler : Bool
  deriving Repr, Inhabited

namespace Task

/-- The tag of tasks that no rule is to look at. -/
def skipTag : String := "skip_ansible_lint"

/-- The task that a node is; a node that is no mapping is none. -/
def ofNode? (isHandler : Bool) (node : Node) : Option Task :=
  if node.isMapping then some ⟨node, .ofTask node, isHandler⟩ else none

/-- The line on which the task starts. -/
def line (t : Task) : Nat :=
  t.node.line

/-- The value of a key of the task. -/
def get? (t : Task) (key : String) : Option Node :=
  t.node.get? key

/-- The name of the task, if it is a string. -/
def name? (t : Task) : Option String :=
  (t.get? "name").bind Tree.string?

/-- Whether the task contains others. -/
def isContainer (t : Task) : Bool :=
  t.node.isContainer

/-- The tags of the task: a string, or the strings of a list. -/
def tags (t : Task) : List String :=
  match t.get? "tags" with
  | some (.sequence _ _ items) => items.filterMap Tree.string?
  | some node => node.string?.toList
  | none => []

/-- Whether the author silenced a rule, or one of its tags, for the whole task. -/
def isSkipped (t : Task) (rule tag : String) : Bool :=
  t.tags.contains skipTag || t.node.silenced.any fun s => s = rule || s = tag

end Task

end PlaybookLint
