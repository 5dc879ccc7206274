import PlaybookLint.Explain
import PlaybookLint.Project
import PlaybookLint.Report

/-!
# The command line

What the arguments on the command line ask for, and what a command says and leaves behind.

## Main definitions

* `Command` - what can be asked for.
* `Command.ofArguments?` - the command that arguments spell; `none` if they are misused.
* `Outcome` - what there is to see after a command.
* `Command.perform` - the outcome of a command.
* `CommandLine.run` - the outcome of some arguments.

## Design notes

Arguments are taken from left to right, and the first thing wrong with one of them decides. A
request for help therefore counts only if nothing before it is wrong, whatever comes after it. The
argument `--` makes values of all that follow.
-/

namespace PlaybookLint

/-! ## Arguments -/

/-- How a project is to be checked. -/
structure CheckOptions where
  path : Path
  format : ReportFormat
  /-- The file with the configuration. -/
  config : Option Path
  /-- How serious a finding makes the check fail. -/
  failOn : Severity
  deriving Repr, DecidableEq, Inhabited

/-- What can be asked for. -/
inductive Command where
  | check (options : CheckOptions)
  /-- Write a configuration to start from. -/
  | init
  /-- Explain a rule, or list all. -/
  | explain (rule : Option String)
  | version
  | help
  deriving Repr, DecidableEq, Inhabited

/-- An argument by its form. -/
inductive Argument where
  | value (text : String)
  /-- A `--`. -/
  | separator
  /-- A word after two dashes, with what stands behind a `=` in the same argument. -/
  | long (name : String) (value : Option String)
  /-- A letter after a dash, with what stands behind it in the same argument. -/
  | short (letter : Char) (rest : List Char)
  deriving Repr, DecidableEq, Inhabited

namespace Argument

/-- An argument by its form. A lone dash is a value. -/
def ofText (text : String) : Argument :=
  match text.toList with
  | ['-', '-'] => .separator
  | '-' :: '-' :: word =>
    match word.dropWhile (· ≠ '=') with
    | [] => .long (String.ofList word) none
    | _ :: text => .long (String.ofList (word.takeWhile (· ≠ '='))) (some (String.ofList text))
  | '-' :: letter :: rest => .short letter rest
  | _ => .value text

/-- The arguments by their forms. Behind a separator there are only values. -/
def ofTexts : List String → List Argument
  | [] => []
  | text :: rest =>
    match ofText text with
    | .separator => .separator :: rest.map .value
    | argument => argument :: ofTexts rest

/-- The value behind a letter in the same argument. A `=` between the two is not part of it. -/
def attached? : List Char → Option String
  | [] => none
  | '=' :: rest => some (String.ofList rest)
  | rest => some (String.ofList rest)

/-- Whether an argument asks for help. -/
def isHelp : Argument → Bool
  | .long "help" none | .short 'h' _ => true
  | _ => false

end Argument

/-- An option with a value. -/
inductive CheckOption where
  | format
  | config
  | failOn
  deriving Repr, DecidableEq, Inhabited

/-- The option that an argument names, and its value if it stands in the same argument. -/
def CheckOption.ofArgument? : Argument → Option (CheckOption × Option String)
  | .long "format" text => some (.format, text)
  | .long "config" text => some (.config, text)
  | .long "fail-on" text => some (.failOn, text)
  | .short 'f' rest => some (.format, Argument.attached? rest)
  | .short 'c' rest => some (.config, Argument.attached? rest)
  | _ => none

/-- A path that an argument spells; it must not be empty. -/
def Path.ofArgument? (text : String) : Option Path :=
  if text = "" then none else some ⟨text⟩

/-- The value, unless one is there already. -/
def once? (there : Option β) (value : Option β) : Option β :=
  if there.isSome then none else value

/-- What the arguments read so far say about a check. -/
structure CheckDraft where
  path : Option Path
  format : Option ReportFormat
  config : Option Path
  failOn : Option Severity
  deriving Repr, DecidableEq, Inhabited

namespace CheckDraft

/-- Nothing is said. -/
def empty : CheckDraft := ⟨none, none, none, none⟩

/-- The draft with a path. -/
def setPath (d : CheckDraft) (text : String) : Option CheckDraft :=
  (once? d.path (Path.ofArgument? text)).map fun path => { d with path := some path }

/-- The draft with the value of an option. -/
def set (d : CheckDraft) (option : CheckOption) (text : String) : Option CheckDraft :=
  match option with
  | .format => (once? d.format (ReportFormat.ofName? text)).map fun v => { d with format := some v }
  | .config => (once? d.config (Path.ofArgument? text)).map fun v => { d with config := some v }
  | .failOn => (once? d.failOn (Severity.ofName? text)).map fun v => { d with failOn := some v }

/-- The finished command. The path has to be there. -/
def finish (d : CheckDraft) : Option Command :=
  d.path.map fun path =>
    .check ⟨path, d.format.getD .text, d.config, d.failOn.getD .warning⟩

/-- The command after arguments. The value of an option may be the argument after it. -/
def read (d : CheckDraft) : List Argument → Option Command
  | [] => d.finish
  | .separator :: rest => d.read rest
  | .value text :: rest => (d.setPath text).bind fun d => d.read rest
  | argument :: rest =>
    if argument.isHelp then some .help
    else
      match CheckOption.ofArgument? argument, rest with
      | some (option, some text), rest => (d.set option text).bind fun d => d.read rest
      | some (option, none), .value text :: rest => (d.set option text).bind fun d => d.read rest
      | _, _ => none

end CheckDraft

namespace Command

/-- The names of the commands. -/
def names : List String := ["check", "init", "explain", "help"]

/-- The command that explains a rule, or lists all. -/
def readExplain (rule : Option String) : List Argument → Option Command
  | [] => some (.explain rule)
  | .separator :: rest => readExplain rule rest
  | .value text :: rest => (once? rule (some text)).bind fun rule => readExplain (some rule) rest
  | argument :: _ => if argument.isHelp then some .help else none

/-- The command that writes a configuration. -/
def readInit : List Argument → Option Command
  | [] => some .init
  | .separator :: rest => readInit rest
  | argument :: _ => if argument.isHelp then some .help else none

/-- A command that stands alone. -/
def ofArgument? : Argument → Option Command
  | .long "version" none | .short 'V' _ => some .version
  | argument => if argument.isHelp then some .help else none

/-- The command that arguments spell. -/
def ofArguments? : List String → Option Command
  | [] => none
  | "check" :: rest => CheckDraft.empty.read (Argument.ofTexts rest)
  | "init" :: rest => readInit (Argument.ofTexts rest)
  | "explain" :: rest => readExplain none (Argument.ofTexts rest)
  | ["help"] => some .help
  | ["help", name] => if names.contains name then some .help else none
  | text :: _ => ofArgument? (Argument.ofText text)

end Command

/-! ## Commands -/

/-- What there is to see after a command. -/
structure Outcome where
  /-- The exit code. -/
  code : Nat
  /-- What is said. -/
  output : String
  /-- What is said about the run itself. -/
  messages : List String
  /-- The name and the text of the file that is left in the working directory. -/
  created : Option (String × String)
  deriving Repr, DecidableEq, Inhabited

namespace Outcome

/-- The outcome of a command that just says something. -/
def saying (output : String) : Outcome := ⟨0, output, [], none⟩

/-- The outcome of a command that cannot be carried out. -/
def failing (messages : List String) : Outcome := ⟨1, "", messages, none⟩

/-- The outcome of a run that ends without a report. -/
def ofFailure (failure : Failure) : Outcome := failing ["Error: " ++ failure.message]

/-- The outcome of arguments that spell no command. -/
def usageError : Outcome := ⟨2, "", ["usage error"], none⟩

/-- The outcome of a check with a report. -/
def ofReport (options : CheckOptions) (root : Path) (found : List Finding)
    (notices : List Notice) : Outcome where
  code := if Report.reaches options.failOn found then 1 else 0
  output := Report.render options.format root found
  messages := (Journal.empty.reportAll notices).said.map Notice.text
  created := none

end Outcome

namespace Command

/-- The version of the program. -/
def versionText : String := "playlint 0.1.0\n"

/-- How the program is used. -/
def helpText : String :=
  "\n".intercalate [
    "Usage:",
    "  playlint check [--format text|json|github] [--config FILE]",
    "                 [--fail-on info|warning|error] PATH",
    "  playlint init",
    "  playlint explain [RULE]",
    "  playlint --version",
    ""]

/-- The outcome of a check. -/
def performCheck [Monad m] (host : Host m) (options : CheckOptions) : m Outcome := do
  let root := (← host.canonical? options.path).getD options.path
  match ← Config.load host options.config root with
  | .error failure => return .ofFailure failure
  | .ok config =>
    match ← Project.run host config root with
    | .error failure => return .ofFailure failure
    | .ok (found, notices) => return .ofReport options root found notices

/-- The outcome of writing a configuration to start from. One that is there already is kept. -/
def performInit [Monad m] (host : Host m) : m Outcome := do
  if (← host.canonical? ⟨Config.fileName⟩).isSome then
    return .failing [Config.fileName ++ " already exists"]
  return { Outcome.saying ("Created " ++ Config.fileName ++ "\n") with
    created := some (Config.fileName, Config.template) }

/-- The outcome of a request to explain a rule. -/
def explainRule (rule : String) : Outcome :=
  match Explain.explanation? rule with
  | some text => .saying (text ++ "\n")
  | none =>
    let suggestion := (Explain.suggestion? rule).map fun close => "Did you mean `" ++ close ++ "`?"
    .failing (["Unknown rule: " ++ rule] ++ suggestion.toList ++ ["", Explain.listing])

/-- The outcome of a command. -/
def perform [Monad m] (host : Host m) : Command → m Outcome
  | .check options => performCheck host options
  | .init => performInit host
  | .explain none => return .saying (Explain.listing ++ "\n")
  | .explain (some rule) => return explainRule rule
  | .version => return .saying versionText
  | .help => return .saying helpText

end Command

/-- The outcome of some arguments. -/
def CommandLine.run [Monad m] (host : Host m) (arguments : List String) : m Outcome :=
  match Command.ofArguments? arguments with
  | some command => command.perform host
  | none => return .usageError

end PlaybookLint
