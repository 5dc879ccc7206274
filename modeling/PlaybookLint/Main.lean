import PlaybookLint.CommandLine

/-!
# The program

Answers the questions of a run from the machine that the program runs on, and shows the outcome.
-/

namespace PlaybookLint.Machine

/-- The text of the file that a path leads to. -/
def readText? (path : String) : IO (Option String) := do
  try return some (← IO.FS.readFile path) catch _ => return none

/-- The path without detours to what a path leads to. -/
def canonical? (path : String) : IO (Option Path) := do
  try return some ⟨(← IO.FS.realPath path).toString⟩ catch _ => return none

/-- What is in the directory that a path leads to. -/
partial def entries (path : String) : IO (List (String × FileTree (IO (Option String)))) := do
  let directory := (← IO.currentDir) / path
  let found ← try directory.readDir catch _ => pure #[]
  found.toList.mapM fun entry => do
    let below := entry.path.toString
    if ← entry.path.isDir then
      return (entry.fileName, .directory (← entries below))
    return (entry.fileName, .file (readText? below))

/-- The machine that the program runs on. -/
def host : Host IO where
  canonical? path := canonical? path.text
  readText? path := readText? path.text
  entries path := entries path.text

/-- Shows what there is to see after a command. -/
def present (outcome : Outcome) : IO UInt32 := do
  match outcome.created with
  | some (name, text) => IO.FS.writeFile name text
  | none => pure ()
  IO.print outcome.output
  for message in outcome.messages do
    IO.eprintln message
  return outcome.code.toUInt32

end PlaybookLint.Machine

/-- Carries out the command that the arguments spell. -/
def main (arguments : List String) : IO UInt32 := do
  let outcome ← PlaybookLint.CommandLine.run PlaybookLint.Machine.host arguments
  PlaybookLint.Machine.present outcome
