import PlaybookLint.Config
import PlaybookLint.FileTree
import PlaybookLint.FileTree.Selection
import PlaybookLint.Finding
import PlaybookLint.Lint

/-!
# Projects

A project is a directory with files to be linted.

## Main definitions

* `SourceFile.lint` - the findings about one file.
* `Config.report` - the findings of a run, without those to be skipped, in order.
* `Project.check` - the findings about some files.
* `Project.run` - the findings about the files of a directory that the configuration chooses.
* `Config.load` - the configuration of a project.

## Design notes

Files are linted one by one, and nothing that is said about one depends on another. What findings
show of a file is its path from the directory that is scanned. The role of a file is another matter:
the scan may start inside a role, so the place where the file really is decides.
-/

namespace PlaybookLint

/-- A file to be linted. -/
structure SourceFile where
  /-- The path that findings show. -/
  shown : Path
  /-- The path by which the file was found. -/
  path : Path
  /-- The path to the file without detours. -/
  location : Path
  /-- The text of the file, if it is one. -/
  text? : Option String
  deriving Repr, DecidableEq, Inhabited

/-- The findings about a file, and the notices that come up. A file that cannot be read has none,
and for one that is not YAML there is just the finding that says so. -/
def SourceFile.lint (rules : List Rule) (file : SourceFile) : List Finding × List Notice :=
  match file.text? with
  | none => ([], [.unreadable file.path])
  | some text =>
    match Document.ofText file.shown none text with
    | .error _ => ([.loadFailure file.shown], [])
    | .ok (doc, notices) => ({ doc with role := roleOf file.location }.lint rules, notices)

namespace Config

/-- The finding, as information only if the configuration says so. -/
def downgrade (config : Config) (f : Finding) : Finding :=
  if f.isListed config.warnList then { f with severity := .info } else f

/-- Findings without those to be skipped, and with those that are information only marked so. -/
def applyLists (config : Config) (found : List Finding) : List Finding :=
  (found.filter fun f => !f.isListed config.skipList).map config.downgrade

/-- The findings of a run as they are reported. -/
def report (config : Config) (found : List Finding) : List Finding :=
  Finding.arrange (config.applyLists found)

/-- Where the configuration of a project is: in the file that is given, else in the file with the
usual name in its directory, else nowhere. -/
def source? [Monad m] (host : Host m) (given : Option Path) (root : Path) : m (Option Path) :=
  match given with
  | some path => pure (some path)
  | none => do
    let usual := root.join ⟨fileName⟩
    return (← host.canonical? usual).map fun _ => usual

/-- The configuration of a project; the standard one if there is none. -/
def load [Monad m] (host : Host m) (given : Option Path) (root : Path) :
    m (Except Failure Config) := do
  match ← source? host given root with
  | none => return .ok standard.normalize
  | some path =>
    match ← host.readText? path with
    | none => return .error (.unreadableConfig path)
    | some text => return ofText text

end Config

namespace Project

/-- The findings about some files that were found below `root`, and the notices that come up. -/
def check (config : Config) (root : Path) (files : List SourceFile) :
    Except Failure (List Finding × List Notice) :=
  if files.isEmpty then .error (.noFiles root)
  else (Rule.enabled config.rules).map fun rules =>
    let results := files.map (SourceFile.lint rules)
    (config.report (results.flatMap Prod.fst), results.flatMap Prod.snd)

/-- The file that names lead to from `root`, read. -/
def openFile [Monad m] (host : Host m) (root : Path) (names : List String)
    (read : m (Option String)) : m SourceFile := do
  let shown := Path.ofSegments names
  let path := root.join shown
  let location ← host.canonical? path
  let text? ← read
  return ⟨shown, path, location.getD path, text?⟩

/-- The files of a directory that a configuration chooses. -/
def files [Monad m] (host : Host m) (config : Config) (root : Path) : m (List SourceFile) := do
  let entries ← host.entries root
  let chosen := config.selection.select (.directory entries)
  chosen.mapM fun (names, read) => openFile host root names read

/-- The findings about the files of a directory that a configuration chooses, and the notices that
come up. -/
def run [Monad m] (host : Host m) (config : Config) (root : Path) :
    m (Except Failure (List Finding × List Notice)) := do
  return check config root (← files host config root)

end Project

end PlaybookLint
