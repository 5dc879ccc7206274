import PlaybookLint.Text.Number
import PlaybookLint.Yaml.Basic

/-!
# Trees

The content of a YAML document: scalars, sequences and mappings, each with the line it starts on. A
tree carries a note at every node. What is read for its meaning and what is read for its comments
are the same trees with different notes, so that whatever looks at content alone is defined once for
both.

A plain scalar is read as playbook loaders read it, `yes` and `off` included; a scalar of any other
style is a string. A number keeps its spelling.

## Main definitions

* `Tree` - a document, or a part of one.
* `Tree.map` - the same content with other notes; `Tree.erase` - without any.
* `Tree.get?` - the value of a key; of duplicates the last one counts.
* `Tree.at?`, `Tree.updateAt` - the node at a path, and the tree with that node changed.
* `OpenCollection` - a collection whose beginning has been read and whose end has not, with what has
  been read of it.
* `OpenCollection.add` - the collection with one more node in it.
* `OpenCollection.close` - the node that the collection is if it ends here.
* `OpenCollection.closeAll` - the same for the collections that are open at one place of a stream,
  innermost first.

## Design notes

An event that begins no node may stand where a node is expected. A sequence passes over it; a
mapping counts it as a key or a value that is missing, and ends with the entry that is not whole.
-/

namespace PlaybookLint

/-! ## Scalars -/

open Yaml (ScalarStyle)

/-- The value of a scalar. -/
inductive Scalar where
  | null
  | bool (value : Bool)
  | number (spelling : String)
  | string (text : String)
  deriving Repr, DecidableEq, Inhabited

namespace Scalar

/-- The plain spellings of null. -/
def nullSpellings : List String := ["", "~", "null", "Null", "NULL"]

/-- The plain spellings of true. -/
def trueSpellings : List String :=
  ["true", "True", "TRUE", "yes", "Yes", "YES", "on", "On", "ON"]

/-- The plain spellings of false. -/
def falseSpellings : List String :=
  ["false", "False", "FALSE", "no", "No", "NO", "off", "Off", "OFF"]

/-- The value of a plain scalar. -/
def ofPlain (text : String) : Scalar :=
  if text ∈ nullSpellings then .null
  else if text ∈ trueSpellings then .bool true
  else if text ∈ falseSpellings then .bool false
  else if Text.spellsNumber text.toList then .number text
  else .string text

/-- The value of a scalar written in some style. -/
def resolve (text : String) : ScalarStyle → Scalar
  | .plain => ofPlain text
  | _ => .string text

/-- The text of a string. -/
def string? : Scalar → Option String
  | .string text => some text
  | _ => none

/-- Whether the value counts as true: not null, false, zero or the empty string. -/
def isTruthy : Scalar → Bool
  | .null => false
  | .bool b => b
  | .number spelling => !Text.spellsZero spelling.toList
  | .string text => text ≠ ""

/-- The value as a text, close to its source. -/
def text : Scalar → String
  | .null => ""
  | .bool true => "true"
  | .bool false => "false"
  | .number spelling => spelling
  | .string text => text

end Scalar

/-! ## Trees -/

/-- A document, or a part of one, with a note of type `α` at every node. -/
inductive Tree (α : Type) where
  | scalar (line : Nat) (note : α) (value : Scalar)
  | sequence (line : Nat) (note : α) (items : List (Tree α))
  /-- The entries are in source order, duplicate keys included. -/
  | mapping (line : Nat) (note : α) (entries : List (Tree α × Tree α))
  deriving Repr

/-- A step from a node to one of its children. -/
inductive Step where
  /-- To an item of a sequence. -/
  | item (index : Nat)
  /-- To the value of an entry of a mapping. -/
  | entry (index : Nat)
  deriving Repr, DecidableEq, Inhabited

/-- The steps from a node to one of its descendants. -/
abbrev TreePath := List Step

namespace Tree

instance [Inhabited α] : Inhabited (Tree α) := ⟨.scalar 0 default .null⟩

/-! ### The parts of a node -/

/-- The line on which the node starts. -/
def line : Tree α → Nat
  | .scalar line _ _ | .sequence line _ _ | .mapping line _ _ => line

/-- The note at the node. -/
def note : Tree α → α
  | .scalar _ note _ | .sequence _ note _ | .mapping _ note _ => note

/-- The node with another note. -/
def setNote (note : α) : Tree α → Tree α
  | .scalar line _ value => .scalar line note value
  | .sequence line _ items => .sequence line note items
  | .mapping line _ entries => .mapping line note entries

/-- The value of a scalar. -/
def scalar? : Tree α → Option Scalar
  | .scalar _ _ value => some value
  | _ => none

/-- The text of a string. -/
def string? (t : Tree α) : Option String :=
  t.scalar?.bind Scalar.string?

/-- The items of a sequence. -/
def items? : Tree α → Option (List (Tree α))
  | .sequence _ _ items => some items
  | _ => none

/-- The entries of a mapping. -/
def entries? : Tree α → Option (List (Tree α × Tree α))
  | .mapping _ _ entries => some entries
  | _ => none

/-- The items of a sequence; none for any other node. -/
def items (t : Tree α) : List (Tree α) :=
  t.items?.getD []

/-- The entries of a mapping; none for any other node. -/
def entries (t : Tree α) : List (Tree α × Tree α) :=
  t.entries?.getD []

/-- Whether the node is a mapping. -/
def isMapping : Tree α → Bool
  | .mapping .. => true
  | _ => false

/-- Whether the node is a sequence or a mapping. -/
def isCollection : Tree α → Bool
  | .scalar .. => false
  | _ => true

/-- Whether the node is null. -/
def isNull (t : Tree α) : Bool :=
  t.scalar? = some .null

/-- Whether the node is a string. -/
def isString (t : Tree α) : Bool :=
  t.string?.isSome

/-- Whether the node counts as true: a scalar that does, or a collection that is not empty. -/
def isTruthy : Tree α → Bool
  | .scalar _ _ value => value.isTruthy
  | .sequence _ _ items => !items.isEmpty
  | .mapping _ _ entries => !entries.isEmpty

/-- The text of a scalar; empty for a collection. -/
def text (t : Tree α) : String :=
  (t.scalar?.map Scalar.text).getD ""

/-! ### Keys -/

/-- The place and the value of the last entry with a key, counting places from `index`. -/
def lookupFrom (key : String) : (index : Nat) → List (Tree α × Tree α) → Option (Nat × Tree α)
  | _, [] => none
  | index, (k, v) :: entries =>
    match lookupFrom key (index + 1) entries with
    | some found => some found
    | none => if k.string? = some key then some (index, v) else none

/-- The place and the value of the last entry with a key. -/
def lookup? (t : Tree α) (key : String) : Option (Nat × Tree α) :=
  lookupFrom key 0 t.entries

/-- The value of a key. -/
def get? (t : Tree α) (key : String) : Option (Tree α) :=
  (t.lookup? key).map Prod.snd

/-- The items of the sequence under a key; none if there is no such sequence. -/
def itemsOf (t : Tree α) (key : String) : List (Tree α) :=
  ((t.get? key).map items).getD []

/-! ### Paths -/

/-- The child that a step leads to. -/
def child? : Tree α → Step → Option (Tree α)
  | .sequence _ _ items, .item i => items[i]?
  | .mapping _ _ entries, .entry i => entries[i]?.map Prod.snd
  | _, _ => none

/-- The node that a path leads to. -/
def at? : Tree α → TreePath → Option (Tree α)
  | t, [] => some t
  | t, step :: path => (t.child? step).bind fun c => c.at? path

/-- The tree with `f` applied to the node that a path leads to, or the same tree if it leads
nowhere. -/
def updateAt (f : Tree α → Tree α) : TreePath → Tree α → Tree α
  | [], t => f t
  | .item i :: path, .sequence line note items =>
    .sequence line note (items.modify i (updateAt f path))
  | .entry i :: path, .mapping line note entries =>
    .mapping line note (entries.modify i fun (k, v) => (k, updateAt f path v))
  | _ :: _, t => t

/-! ### Notes -/

mutual

/-- The same content with `f` applied to every note. -/
def map (f : α → β) : Tree α → Tree β
  | .scalar line note value => .scalar line (f note) value
  | .sequence line note items => .sequence line (f note) (mapItems f items)
  | .mapping line note entries => .mapping line (f note) (mapEntries f entries)

/-- `Tree.map` for every tree of a list. -/
def mapItems (f : α → β) : List (Tree α) → List (Tree β)
  | [] => []
  | t :: ts => map f t :: mapItems f ts

/-- `Tree.map` for every key and value of a list. -/
def mapEntries (f : α → β) : List (Tree α × Tree α) → List (Tree β × Tree β)
  | [] => []
  | (k, v) :: es => (map f k, map f v) :: mapEntries f es

end

@[simp] theorem line_map (f : α → β) (t : Tree α) : (t.map f).line = t.line := by
  cases t <;> rfl

mutual

@[simp] theorem map_map (g : β → γ) (f : α → β) : (t : Tree α) → (t.map f).map g = t.map (g ∘ f)
  | .scalar .. => rfl
  | .sequence _ _ items => by simp [map, mapItems_mapItems g f items]
  | .mapping _ _ entries => by simp [map, mapEntries_mapEntries g f entries]

theorem mapItems_mapItems (g : β → γ) (f : α → β) : (ts : List (Tree α)) →
    mapItems g (mapItems f ts) = mapItems (g ∘ f) ts
  | [] => rfl
  | t :: ts => by simp [mapItems, map_map g f t, mapItems_mapItems g f ts]

theorem mapEntries_mapEntries (g : β → γ) (f : α → β) : (es : List (Tree α × Tree α)) →
    mapEntries g (mapEntries f es) = mapEntries (g ∘ f) es
  | [] => rfl
  | (k, v) :: es => by
    simp [mapEntries, map_map g f k, map_map g f v, mapEntries_mapEntries g f es]

end

theorem mapItems_eq_map (f : α → β) (ts : List (Tree α)) : mapItems f ts = ts.map (map f) := by
  induction ts with
  | nil => rfl
  | cons t ts ih => rw [mapItems, ih, List.map_cons]

theorem mapEntries_eq_map (f : α → β) (es : List (Tree α × Tree α)) :
    mapEntries f es = es.map (Prod.map (map f) (map f)) := by
  induction es with
  | nil => rfl
  | cons e es ih => rw [mapEntries, ih, List.map_cons, Prod.map]

@[simp] theorem map_scalar (f : α → β) (line : Nat) (note : α) (value : Scalar) :
    (Tree.scalar line note value).map f = .scalar line (f note) value :=
  rfl

@[simp] theorem map_sequence (f : α → β) (line : Nat) (note : α) (items : List (Tree α)) :
    (Tree.sequence line note items).map f = .sequence line (f note) (items.map (map f)) := by
  rw [map, mapItems_eq_map]

@[simp] theorem map_mapping (f : α → β) (line : Nat) (note : α)
    (entries : List (Tree α × Tree α)) :
    (Tree.mapping line note entries).map f =
      .mapping line (f note) (entries.map (Prod.map (map f) (map f))) := by
  rw [map, mapEntries_eq_map]

mutual

@[simp] theorem map_id : (t : Tree α) → t.map id = t
  | .scalar .. => rfl
  | .sequence _ _ items => by rw [map, mapItems_id items, id]
  | .mapping _ _ entries => by rw [map, mapEntries_id entries, id]

theorem mapItems_id : (ts : List (Tree α)) → mapItems id ts = ts
  | [] => rfl
  | t :: ts => by rw [mapItems, map_id t, mapItems_id ts]

theorem mapEntries_id : (es : List (Tree α × Tree α)) → mapEntries id es = es
  | [] => rfl
  | (k, v) :: es => by rw [mapEntries, map_id k, map_id v, mapEntries_id es]

end

/-- The content without the notes. -/
def erase (t : Tree α) : Tree Unit :=
  t.map fun _ => ()

@[simp] theorem erase_scalar (line : Nat) (note : α) (value : Scalar) :
    (Tree.scalar line note value).erase = .scalar line () value :=
  rfl

@[simp] theorem erase_sequence (line : Nat) (note : α) (items : List (Tree α)) :
    (Tree.sequence line note items).erase = .sequence line () (items.map erase) :=
  map_sequence _ line note items

@[simp] theorem erase_mapping (line : Nat) (note : α) (entries : List (Tree α × Tree α)) :
    (Tree.mapping line note entries).erase =
      .mapping line () (entries.map (Prod.map erase erase)) :=
  map_mapping _ line note entries

@[simp] theorem erase_map (f : α → β) (t : Tree α) : (t.map f).erase = t.erase :=
  map_map _ f t

end Tree

/-! ## Open collections -/

/-- A collection that has been opened and not closed; its parts are latest first. -/
inductive OpenCollection (α : Type) where
  | sequence (line anchor : Nat) (items : List (Tree α))
  /-- A mapping whose next part is a key. -/
  | mapping (line anchor : Nat) (entries : List (Tree α × Tree α))
  /-- A mapping whose next part is the value of `key`, which may be missing. -/
  | entry (line anchor : Nat) (entries : List (Tree α × Tree α)) (key : Option (Tree α))

namespace OpenCollection

/-- The anchor of the collection; zero if it has none. -/
def anchor : OpenCollection α → Nat
  | .sequence _ anchor _ | .mapping _ anchor _ | .entry _ anchor _ _ => anchor

/-- The collection with one more node, or with the lack of one; `none` if that ends it. -/
def add (node : Option (Tree α)) : OpenCollection α → Option (OpenCollection α)
  | .sequence line anchor items => some (.sequence line anchor (node.toList ++ items))
  | .mapping line anchor entries => some (.entry line anchor entries node)
  | .entry line anchor entries key =>
    match key, node with
    | some key, some value => some (.mapping line anchor ((key, value) :: entries))
    | _, _ => none

/-- The node that the collection is if it ends here; a key without a value is dropped. -/
def close (note : α) : OpenCollection α → Tree α
  | .sequence line _ items => .sequence line note items.reverse
  | .mapping line _ entries | .entry line _ entries _ => .mapping line note entries.reverse

/-- The node that the collection is if it ends here after the node in it that ends here. -/
def closeAround (note : α) (inner : Option (Tree α)) (c : OpenCollection α) : Tree α :=
  ((c.add inner).getD c).close note

/-- The outermost of some open collections, if all of them end here. -/
def closeAll (note : α) (opened : List (OpenCollection α)) : Option (Tree α) :=
  opened.foldl (fun inner c => some (c.closeAround note inner)) none

end OpenCollection

end PlaybookLint
