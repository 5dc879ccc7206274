import PlaybookLint.Comment
import PlaybookLint.Tree
import PlaybookLint.Yaml.Grammar

/-!
# Comments in trees

The events of a text are read once more, for the collections that its comments belong to. The nodes
are those of the content, aliases and missing nodes included. On the way every scalar that is read
is added to the mask of the text.

A comment belongs to the innermost collection whose lines hold it. The lines of a collection reach
from its first one to the line before its next sibling starts, so that a comment between two tasks
belongs to the task above it. The last child of a collection reaches as far as the collection.

## Main definitions

* `CommentReader` - what has been read so far.
* `CommentReader.step` - reads one event.
* `CommentReader.documents` - the roots of the text; no comment has been placed in them.
* `Tree.place` - a node with one more comment in it.
* `placeInDocuments` - the same for the roots of a stream.
* `CommentTree.ofText` - a text with all its comments placed.

## Design notes

The tree depends on the text alone. That trees may be kept for texts that are read again is left
out: it saves time and changes no result.
-/

namespace PlaybookLint

/-! ## Reading a text for its comments -/

open Yaml (Event)

/-- A text that has been read for its comments up to some place. -/
structure CommentReader where
  /-- Finished nodes by anchor, latest first. -/
  anchors : List (Nat × CommentNode)
  /-- Open collections, innermost first. -/
  opened : List (OpenCollection (List Comment))
  /-- Whether a document has started whose root is not finished. -/
  awaitsRoot : Bool
  /-- Whether the stream has ended. -/
  ended : Bool
  /-- Finished roots, latest first. -/
  roots : List CommentNode
  /-- Where the scalars that have been read leave no room for comments. -/
  mask : Mask

namespace CommentReader

/-- Nothing has been read. -/
def empty : CommentReader := ⟨[], [], false, false, [], .empty⟩

/-- Remembers a finished node under its anchor, if it has one. -/
def remember (anchor : Nat) (node : CommentNode) (r : CommentReader) : CommentReader :=
  if anchor > 0 then { r with anchors := (anchor, node) :: r.anchors } else r

/-- Hands over a node, or the lack of one: to the innermost of the open collections that does not
end with it, and to the stream if there is none. -/
def deliver : Option CommentNode → List (OpenCollection (List Comment)) → CommentReader →
    CommentReader
  | node, [], r => { r with opened := [], awaitsRoot := false, roots := node.toList ++ r.roots }
  | node, c :: outer, r =>
    match c.add node with
    | some c => { r with opened := c :: outer }
    | none => deliver (some (c.close [])) outer (r.remember c.anchor (c.close []))

/-- Ends the innermost of the open collections. -/
def finish (c : OpenCollection (List Comment)) (outer : List (OpenCollection (List Comment)))
    (r : CommentReader) : CommentReader :=
  deliver (some (c.close [])) outer (r.remember c.anchor (c.close []))

/-- Reads an event where a node is expected. -/
def readNode (source : List Char) (lines : List Line) (r : CommentReader) (event : Event) :
    CommentReader :=
  let line := event.mark.line
  match event.kind with
  | .scalar text style anchor =>
    let node := .scalar line [] (Scalar.resolve text style)
    let r := { r with mask := r.mask.cover source lines event }
    deliver (some node) r.opened (r.remember anchor node)
  | .sequenceStart anchor => { r with opened := .sequence line anchor [] :: r.opened }
  | .mappingStart anchor => { r with opened := .mapping line anchor [] :: r.opened }
  | .alias anchor =>
    deliver (some ((r.anchors.lookup anchor).getD (.scalar line [] .null))) r.opened r
  | _ => deliver none r.opened r

/-- Reads an event between two documents. -/
def readBetween (r : CommentReader) (event : Event) : CommentReader :=
  match event.kind with
  | .documentStart => { r with awaitsRoot := true }
  | .streamEnd => { r with ended := true }
  | _ => r

/-- Reads one event. -/
def step (source : List Char) (lines : List Line) (r : CommentReader) (event : Event) :
    CommentReader :=
  match r.opened, event.kind with
  | .sequence line anchor items :: outer, .sequenceEnd =>
    r.finish (.sequence line anchor items) outer
  | .mapping line anchor entries :: outer, .mappingEnd =>
    r.finish (.mapping line anchor entries) outer
  | _ :: _, _ => r.readNode source lines event
  | [], _ =>
    if r.ended then r
    else if r.awaitsRoot then r.readNode source lines event
    else r.readBetween event

/-- What has been read after a list of events. -/
def run (source : List Char) (lines : List Line) (events : List Event) : CommentReader :=
  events.foldl (step source lines) empty

/-- The roots, in order, if there are no more events. -/
def documents (r : CommentReader) : List CommentNode :=
  ((OpenCollection.closeAll [] r.opened).toList ++ r.roots).reverse

end CommentReader

/-! ## Where a comment belongs -/

/-- Whether a line lies at or above a bound; there may be none. -/
def reaches (bound : Option Nat) (line : Nat) : Bool :=
  bound.all fun b => decide (line ≤ b)

/-- Whether a child with this bound owns a comment on `line`. -/
def owns (child : Tree α) (bound : Option Nat) (line : Nat) : Bool :=
  child.isCollection && decide (child.line ≤ line) && reaches bound line

/-- The node with one more comment of its own. -/
def Tree.addComment (c : Comment) (t : CommentNode) : CommentNode :=
  t.setNote (t.note ++ [c])

namespace Tree

mutual

/-- The node with the comment in it, given that the node reaches to `bound`. -/
def place (bound : Option Nat) (c : Comment) : CommentNode → CommentNode
  | .scalar line comments value => .scalar line (comments ++ [c]) value
  | .sequence line comments items =>
    match placeInItems bound c items with
    | some items => .sequence line comments items
    | none => .sequence line (comments ++ [c]) items
  | .mapping line comments entries =>
    match placeInEntries bound c entries with
    | some entries => .mapping line comments entries
    | none => .mapping line (comments ++ [c]) entries

/-- The items with the comment in the first one that owns it; `none` if no item does. An item
reaches to the line before the next item, and the last one to `bound`. -/
def placeInItems (bound : Option Nat) (c : Comment) :
    List CommentNode → Option (List CommentNode)
  | [] => none
  | item :: items =>
    let itemBound := match items with
      | [] => bound
      | next :: _ => some (next.line - 1)
    if owns item itemBound c.line then some (place itemBound c item :: items)
    else (placeInItems bound c items).map (item :: ·)

/-- The entries with the comment in the first value that owns it; `none` if no value does. A value
reaches to the line before the next key, and the last one to `bound`. -/
def placeInEntries (bound : Option Nat) (c : Comment) :
    List (CommentNode × CommentNode) → Option (List (CommentNode × CommentNode))
  | [] => none
  | (key, value) :: entries =>
    let valueBound := match entries with
      | [] => bound
      | (next, _) :: _ => some (next.line - 1)
    if owns value valueBound c.line then some ((key, place valueBound c value) :: entries)
    else (placeInEntries bound c entries).map ((key, value) :: ·)

end

mutual

/-- The comments in a node: its own, then those of its items or values. Keys hold none. -/
def comments : CommentNode → List Comment
  | .scalar _ own _ => own
  | .sequence _ own items => own ++ commentsOfItems items
  | .mapping _ own entries => own ++ commentsOfEntries entries

/-- The comments in a list of items. -/
def commentsOfItems : List CommentNode → List Comment
  | [] => []
  | item :: items => comments item ++ commentsOfItems items

/-- The comments in the values of a list of entries. -/
def commentsOfEntries : List (CommentNode × CommentNode) → List Comment
  | [] => []
  | (_, value) :: entries => comments value ++ commentsOfEntries entries

end

end Tree

/-- The place of the last root that starts at or above a line; the first place if there is none. -/
def rootIndex (line : Nat) (roots : List CommentNode) : Nat :=
  roots.length - 1 - roots.reverse.findIdx fun root => decide (root.line ≤ line)

/-- The roots of a stream with one more comment in them. A root reaches to the line before the next
one. -/
def placeInDocuments (roots : List CommentNode) (c : Comment) : List CommentNode :=
  let i := rootIndex c.line roots
  let bound := roots[i + 1]?.map fun next => next.line - 1
  roots.modify i (Tree.place bound c)

/-- A text read for its comments. -/
structure CommentTree where
  lines : List Line
  documents : List CommentNode
  deriving Inhabited

namespace CommentTree

/-- All comments of a text with these events, in order. -/
def scanned (source : List Char) (events : List Yaml.Event) : List Comment :=
  let lines := Text.splitAll '\n' source
  scanComments lines (CommentReader.run source lines events).mask

/-- The comments of a text with these events, each in the node it belongs to. -/
def ofEvents (source : List Char) (events : List Yaml.Event) : CommentTree :=
  let lines := Text.splitAll '\n' source
  ⟨lines, (scanned source events).foldl placeInDocuments
    (CommentReader.run source lines events).documents⟩

/-- The comments of a text. -/
def ofText (text : String) : Except Yaml.Error CommentTree :=
  (Yaml.Event.read text).map (ofEvents text.toList)

/-- The root of the document, if there is exactly one. -/
def root? (tree : CommentTree) : Option CommentNode :=
  match tree.documents with
  | [root] => some root
  | _ => none

end CommentTree

end PlaybookLint
