import PlaybookLint.Marker
import PlaybookLint.Path
import PlaybookLint.Text.Unicode

/-!
# Notices

What a run has to say besides its findings. Every function that comes across something worth saying
returns it as a notice; a journal takes notices in and decides which ones are said.

## Main definitions

* `Notice` - something worth saying.
* `Journal` - what has been said so far.
* `Journal.report` - takes in one notice.

## Design notes

The same marker is read many times, once for every task around it, and the same outdated identifier
may stand in many files. A reader wants to hear of it once. The journal therefore remembers the
outdated identifiers it has heard of. No result depends on what the journal holds, because
only the journal looks at it.
-/

namespace PlaybookLint

/-- Two tasks at the same place in their sequences that are not the same task. -/
structure Mismatch where
  /-- Their place, from zero. -/
  position : Nat
  /-- The name of the task to be linted. -/
  semantic : Option String
  /-- The name of the task with the comments. -/
  comment : Option String
  deriving Repr, DecidableEq, Inhabited

/-- The name of a task, spelled out for a message. -/
def showName : Option String → String
  | some name => "Some(" ++ Text.quoted name ++ ")"
  | none => "None"

/-- The mismatch in words. -/
def Mismatch.message (m : Mismatch) : String :=
  "error in matching skip comment to a task at position " ++ toString m.position ++
    ": semantic name " ++ showName m.semantic ++ " != comment name " ++ showName m.comment

/-- Something worth saying. -/
inductive Notice where
  /-- An identifier in a marker has another name now. -/
  | outdated (file : Path) (line : Nat) (tag current : String)
  /-- The tasks of a file and those of its comments do not agree. -/
  | uncorrelated (file : Path) (mismatch : Mismatch)
  /-- A file cannot be read. -/
  | unreadable (file : Path)
  deriving Repr, DecidableEq, Inhabited

namespace Notice

/-- The outdated identifier that the notice is about. -/
def tag? : Notice → Option String
  | .outdated _ _ tag _ => some tag
  | _ => none

/-- The notice in words, after a word for how serious it is. Why a file cannot be read, in the words
of the machine, is left out. -/
def text : Notice → String
  | .outdated file line tag current =>
    "WARN " ++ file.text ++ ":" ++ toString line ++ ": replaced outdated tag '" ++ tag ++
      "' with '" ++ current ++ "', replace it to avoid future errors"
  | .uncorrelated file mismatch => "ERROR " ++ file.text ++ ": " ++ mismatch.message
  | .unreadable file => "WARN failed to read " ++ file.text

/-- The notice about an identifier on a line of a file, if it is outdated. -/
def ofTag? (file : Path) (line : Nat) (tag : String) : Option Notice :=
  (Tag.current? tag).map (.outdated file line tag)

/-- The notices about the identifiers in a comment. -/
def ofComment (file : Path) (c : Comment) : List Notice :=
  c.names.filterMap (ofTag? file c.line)

/-- The notices about the identifiers in the markers among some comments. -/
def ofComments (file : Path) (comments : List Comment) : List Notice :=
  (comments.filter Comment.isMarker).flatMap (ofComment file)

end Notice

/-- What has been said so far. -/
structure Journal where
  /-- The outdated identifiers that have been heard of. -/
  noted : List String
  /-- The notices that have been said, in order. -/
  said : List Notice
  deriving Repr, Inhabited

namespace Journal

/-- Nothing has been said. -/
def empty : Journal := ⟨[], []⟩

/-- Hears of an outdated identifier; the answer is whether it is news. -/
def note (j : Journal) (tag : String) : Bool × Journal :=
  if tag ∈ j.noted then (false, j) else (true, { j with noted := tag :: j.noted })

/-- Says a notice. -/
def say (j : Journal) (n : Notice) : Journal :=
  { j with said := j.said ++ [n] }

/-- Takes in a notice. One about an outdated identifier is said only if that is news. -/
def report (j : Journal) (n : Notice) : Journal :=
  match n.tag? with
  | some tag =>
    match j.note tag with
    | (true, j) => j.say n
    | (false, j) => j
  | none => j.say n

/-- Takes in notices one after the other. -/
def reportAll (j : Journal) (notices : List Notice) : Journal :=
  notices.foldl report j

end Journal

end PlaybookLint
