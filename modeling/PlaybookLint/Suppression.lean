import PlaybookLint.Comment.Placement
import PlaybookLint.Marker

/-!
# Silenced lines

What the markers of a file silence, line by line.

## Main definitions

* `LineSkips` - what is silenced on one line.
* `SuppressionMap` - what is silenced on every line.
* `SuppressionMap.ofComments` - the map of the markers among some comments.
* `SuppressionMap.carryOver` - lets a marker that stands alone hold for the line below it.
* `CommentTree.lineSkips` - the map of a file.

## Design notes

A marker that stands alone on its line also holds for the next line that is not blank. Lines are
visited from the top, so that a stack of such markers is carried down as a whole.
-/

namespace PlaybookLint

/-- What is silenced on a line. -/
structure LineSkips where
  /-- Whether everything is. -/
  all : Bool
  /-- The identifiers of what is, as a set. -/
  rules : List String
  deriving Repr, DecidableEq, Inhabited

namespace LineSkips

/-- Nothing is silenced. -/
def empty : LineSkips := ⟨false, []⟩

/-- What is silenced by either of two. -/
def merge (s t : LineSkips) : LineSkips :=
  ⟨s.all || t.all, NameSet.insertAll t.rules s.rules⟩

/-- What a marker with these identifiers silences. -/
def ofMarker (rules : List String) : LineSkips :=
  ⟨rules.isEmpty, NameSet.ofList rules⟩

/-- Whether a finding is silenced: by its tag, by the name of its rule, or with everything else. -/
def silences (s : LineSkips) (tag rule : String) : Bool :=
  s.all || s.rules.contains tag || s.rules.contains rule

@[simp] theorem empty_silences (tag rule : String) : empty.silences tag rule = false := by
  simp [silences, empty]

@[simp] theorem merge_silences (s t : LineSkips) (tag rule : String) :
    (s.merge t).silences tag rule = (s.silences tag rule || t.silences tag rule) := by
  rw [Bool.eq_iff_iff]
  simp only [silences, merge, Bool.or_eq_true, List.contains_iff_mem, NameSet.mem_insertAll]
  grind

end LineSkips

/-- What is silenced on every line: the lines on which a marker has a say, increasing. -/
structure SuppressionMap where
  lines : List (Nat × LineSkips)
  deriving Repr, DecidableEq, Inhabited

namespace SuppressionMap

/-- No marker has a say anywhere. -/
def empty : SuppressionMap := ⟨[]⟩

/-- Whether no marker has a say anywhere. -/
def isEmpty (m : SuppressionMap) : Bool :=
  m.lines.isEmpty

/-- What is silenced on a line on which a marker has a say. -/
def get? (m : SuppressionMap) (line : Nat) : Option LineSkips :=
  m.lines.lookup line

/-- The lines with `skips` added on one line. -/
def mergeInto (line : Nat) (skips : LineSkips) : List (Nat × LineSkips) → List (Nat × LineSkips)
  | [] => [(line, LineSkips.empty.merge skips)]
  | (other, present) :: lines =>
    if line < other then (line, LineSkips.empty.merge skips) :: (other, present) :: lines
    else if line = other then (other, present.merge skips) :: lines
    else (other, present) :: mergeInto line skips lines

/-- The map with `skips` added on one line. -/
def merge (m : SuppressionMap) (line : Nat) (skips : LineSkips) : SuppressionMap :=
  ⟨mergeInto line skips m.lines⟩

/-- The map with a marker added on a line. -/
def add (m : SuppressionMap) (line : Nat) (rules : List String) : SuppressionMap :=
  m.merge line (.ofMarker rules)

/-- Whether a finding on a line is silenced. -/
def isSuppressed (m : SuppressionMap) (line : Nat) (tag rule : String) : Bool :=
  (m.get? line).any fun skips => skips.silences tag rule

/-- The map of the markers among some comments. -/
def ofComments (comments : List Comment) : SuppressionMap :=
  (comments.filter Comment.isMarker).foldl (fun m c => m.add c.line c.skips) empty

/-- Whether a marker stands alone on a line. -/
def isStandalone (lines : List Line) (line : Nat) : Bool :=
  (lines[line - 1]?).any isMarkerText

/-- The first line below a line that is not blank. -/
def nextLine? (lines : List Line) (line : Nat) : Option Nat :=
  ((lines.drop line).findIdx? fun text => !Text.isBlankText text).map fun i => line + 1 + i

/-- The map with what is silenced on a line silenced on the next one too. -/
def carry (lines : List Line) (m : SuppressionMap) (line : Nat) : SuppressionMap :=
  match nextLine? lines line, m.get? line with
  | some next, some skips => m.merge next skips
  | _, _ => m

/-- The map with every marker that stands alone carried to the line below it. -/
def carryOver (lines : List Line) (m : SuppressionMap) : SuppressionMap :=
  ((m.lines.map Prod.fst).filter (isStandalone lines)).foldl (carry lines) m

end SuppressionMap

namespace CommentTree

/-- The documents whose comments count: those that are collections. -/
def collections (tree : CommentTree) : List CommentNode :=
  tree.documents.filter Tree.isCollection

/-- The comments that count, in the order of the nodes that hold them. -/
def comments (tree : CommentTree) : List Comment :=
  tree.collections.flatMap Tree.comments

/-- What the markers of a file silence, line by line. -/
def lineSkips (tree : CommentTree) : SuppressionMap :=
  (SuppressionMap.ofComments tree.comments).carryOver tree.lines

end CommentTree

namespace Tree

/-- The identifiers that the markers in a node name, as a set. -/
def subtreeSkips (node : CommentNode) : List String :=
  skipsOfComments node.comments

end Tree

end PlaybookLint
