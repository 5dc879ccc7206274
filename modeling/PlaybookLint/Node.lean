import PlaybookLint.Tree
import PlaybookLint.Yaml.Grammar

/-!
# Nodes

A node of the content of a file, with a suppression list if it has been given one. The events of a
stream are read in one pass. Where a node is expected, an event is a node or begins one; a finished
node goes into the innermost open collection, or becomes the root of its document.

## Main definitions

* `Node` - a node of the content.
* `ContentReader` - what has been read so far.
* `ContentReader.step` - reads one event.
* `Node.documents` - the roots of a stream.
* `Node.load` - the content of a text.

## Design notes

* **Aliases.** An alias is replaced by a copy of the finished node with its anchor, lines included.
  If no such node is finished, as inside the anchored node itself, the alias is a null on its own
  line.
* **Every list of events** can be read. An event that begins no node takes the place of the node
  that is expected there, which then is missing; what is open when the events run out ends there.
-/

namespace PlaybookLint

/-- A node of the content of a file. The note is the list of the rules and tags that the author
silenced for the node; `none` until a list has been attached. -/
abbrev Node := Tree (Option (List String))

/-- The rules and tags silenced for the node. -/
def Tree.silenced (n : Node) : List String :=
  n.note.getD []

namespace Node

/-- A null. -/
def null (line : Nat) : Node :=
  .scalar line none .null

/-- A string. -/
def string (line : Nat) (text : String) : Node :=
  .scalar line none (.string text)

end Node

/-! ## Reading the content of a file -/

open Yaml (Event)

/-- A stream whose content has been read up to some place. -/
structure ContentReader where
  /-- Finished nodes by anchor, latest first. -/
  anchors : List (Nat × Node)
  /-- Open collections, innermost first. -/
  opened : List (OpenCollection (Option (List String)))
  /-- Whether a document has started whose root is not finished. -/
  awaitsRoot : Bool
  /-- Whether the stream has ended. -/
  ended : Bool
  /-- Finished roots, latest first. -/
  roots : List Node

namespace ContentReader

/-- Nothing has been read. -/
def empty : ContentReader := ⟨[], [], false, false, []⟩

/-- Remembers a finished node under its anchor, if it has one. -/
def remember (anchor : Nat) (node : Node) (r : ContentReader) : ContentReader :=
  if anchor > 0 then { r with anchors := (anchor, node) :: r.anchors } else r

/-- Hands over a node, or the lack of one: to the innermost of the open collections that does not
end with it, and to the stream if there is none. -/
def deliver : Option Node → List (OpenCollection (Option (List String))) → ContentReader →
    ContentReader
  | node, [], r => { r with opened := [], awaitsRoot := false, roots := node.toList ++ r.roots }
  | node, c :: outer, r =>
    match c.add node with
    | some c => { r with opened := c :: outer }
    | none => deliver (some (c.close none)) outer (r.remember c.anchor (c.close none))

/-- Ends the innermost of the open collections. -/
def finish (c : OpenCollection (Option (List String)))
    (outer : List (OpenCollection (Option (List String)))) (r : ContentReader) : ContentReader :=
  deliver (some (c.close none)) outer (r.remember c.anchor (c.close none))

/-- Reads an event where a node is expected. -/
def readNode (r : ContentReader) (event : Event) : ContentReader :=
  let line := event.mark.line
  match event.kind with
  | .scalar text style anchor =>
    let node := .scalar line none (Scalar.resolve text style)
    deliver (some node) r.opened (r.remember anchor node)
  | .sequenceStart anchor => { r with opened := .sequence line anchor [] :: r.opened }
  | .mappingStart anchor => { r with opened := .mapping line anchor [] :: r.opened }
  | .alias anchor => deliver (some ((r.anchors.lookup anchor).getD (.null line))) r.opened r
  | _ => deliver none r.opened r

/-- Reads an event between two documents. -/
def readBetween (r : ContentReader) (event : Event) : ContentReader :=
  match event.kind with
  | .documentStart => { r with awaitsRoot := true }
  | .streamEnd => { r with ended := true }
  | _ => r

/-- Reads one event. -/
def step (r : ContentReader) (event : Event) : ContentReader :=
  match r.opened, event.kind with
  | .sequence line anchor items :: outer, .sequenceEnd =>
    r.finish (.sequence line anchor items) outer
  | .mapping line anchor entries :: outer, .mappingEnd =>
    r.finish (.mapping line anchor entries) outer
  | _ :: _, _ => r.readNode event
  | [], _ =>
    if r.ended then r
    else if r.awaitsRoot then r.readNode event
    else r.readBetween event

/-- The roots, in order, if there are no more events. -/
def documents (r : ContentReader) : List Node :=
  ((OpenCollection.closeAll none r.opened).toList ++ r.roots).reverse

end ContentReader

namespace Node

/-- The roots of the documents of a list of events. -/
def documents (events : List Event) : List Node :=
  (events.foldl ContentReader.step .empty).documents

/-- The content of a stream: null for no document, the root of a single document, and otherwise a
sequence of the roots. -/
def ofDocuments : List Node → Node
  | [] => null 1
  | [root] => root
  | root :: roots => .sequence root.line none (root :: roots)

/-- The content of a list of events. -/
def ofEvents (events : List Event) : Node :=
  ofDocuments (documents events)

/-- The content of a text. -/
def load (text : String) : Except Yaml.Error Node :=
  (Event.read text).map ofEvents

end Node

end PlaybookLint
