import PlaybookLint.Node

/-!
# Streams as they are written

A node as it is written has marks, anchors and aliases, and becomes a run of events. Reading this
run takes in exactly the node: the aliases in it are resolved by the anchors that are known when
they are met, and what stands around it is left alone.

## Main definitions

* `Written` - a node as it is written.
* `Written.events` - the events of a node.
* `Written.resolve` - the content of a node, and the anchors that are known after it.
* `WrittenDocument`, `WrittenDocument.stream` - documents, and the events of a stream of them.

## Main statements

* `Written.foldl_step_events` - reading the events of a node hands over its content.
* `WrittenDocument.documents_stream` - reading the events of a stream gives its documents.
-/

namespace PlaybookLint

open Yaml (Event Mark ScalarStyle)

/-! ### Nodes as they are written -/

/-- A node as it is written, with the marks of its events. An anchor of zero is none. -/
inductive Written where
  | scalar (mark : Mark) (text : String) (style : ScalarStyle) (anchor : Nat)
  | alias (mark : Mark) (anchor : Nat)
  | sequence (start stop : Mark) (anchor : Nat) (items : List Written)
  | mapping (start stop : Mark) (anchor : Nat) (entries : List (Written × Written))

/-- Finished nodes by anchor, latest first. -/
abbrev Anchors := List (Nat × Node)

/-- The anchors with one more finished node, if it has an anchor. -/
def Anchors.remember (anchor : Nat) (node : Node) (anchors : Anchors) : Anchors :=
  if anchor > 0 then (anchor, node) :: anchors else anchors

namespace Written

/-- The line on which the node is written. -/
def line : Written → Nat
  | .scalar mark .. | .alias mark _ => mark.line
  | .sequence start .. | .mapping start .. => start.line

/-- Whether the node is written as an alias. -/
def isAlias : Written → Bool
  | .alias .. => true
  | _ => false

/-- Whether the node is written as a sequence or a mapping. -/
def isCollection : Written → Bool
  | .sequence .. | .mapping .. => true
  | _ => false

mutual

/-- The events of a node. -/
def events : Written → List Event
  | .scalar mark text style anchor => [⟨.scalar text style anchor, mark⟩]
  | .alias mark anchor => [⟨.alias anchor, mark⟩]
  | .sequence start stop anchor items =>
    ⟨.sequenceStart anchor, start⟩ :: (eventsOfItems items ++ [⟨.sequenceEnd, stop⟩])
  | .mapping start stop anchor entries =>
    ⟨.mappingStart anchor, start⟩ :: (eventsOfEntries entries ++ [⟨.mappingEnd, stop⟩])

/-- The events of some items. -/
def eventsOfItems : List Written → List Event
  | [] => []
  | item :: items => events item ++ eventsOfItems items

/-- The events of some entries. -/
def eventsOfEntries : List (Written × Written) → List Event
  | [] => []
  | (key, value) :: entries => events key ++ events value ++ eventsOfEntries entries

end

mutual

/-- The content of a node, given the anchors that are known before it, and the anchors after it. -/
def resolve (anchors : Anchors) : Written → Node × Anchors
  | .scalar mark text style anchor =>
    let node := .scalar mark.line none (Scalar.resolve text style)
    (node, anchors.remember anchor node)
  | .alias mark anchor => ((anchors.lookup anchor).getD (.null mark.line), anchors)
  | .sequence start _ anchor items =>
    let (items, anchors) := resolveItems anchors items
    let node := .sequence start.line none items
    (node, anchors.remember anchor node)
  | .mapping start _ anchor entries =>
    let (entries, anchors) := resolveEntries anchors entries
    let node := .mapping start.line none entries
    (node, anchors.remember anchor node)

/-- The contents of some items, one after the other. -/
def resolveItems (anchors : Anchors) : List Written → List Node × Anchors
  | [] => ([], anchors)
  | item :: items =>
    let (node, anchors) := resolve anchors item
    let (nodes, anchors) := resolveItems anchors items
    (node :: nodes, anchors)

/-- The contents of some entries, one after the other. -/
def resolveEntries (anchors : Anchors) : List (Written × Written) → List (Node × Node) × Anchors
  | [] => ([], anchors)
  | (key, value) :: entries =>
    let (key, anchors) := resolve anchors key
    let (value, anchors) := resolve anchors value
    let (nodes, anchors) := resolveEntries anchors entries
    ((key, value) :: nodes, anchors)

end

end Written

/-! ### Reading a node -/

namespace ContentReader

/-- The next event is one where a node may stand. -/
def ExpectsNode (r : ContentReader) : Prop :=
  r.opened ≠ [] ∨ r.ended = false ∧ r.awaitsRoot = true

theorem expectsNode_of_opened {r : ContentReader} {c : OpenCollection (Option (List String))}
    {outer : List (OpenCollection (Option (List String)))} (h : r.opened = c :: outer) :
    r.ExpectsNode :=
  .inl (h ▸ List.cons_ne_nil c outer)

/-- An event that ends no collection is read where a node is expected. -/
theorem step_eq_readNode {r : ContentReader} (h : r.ExpectsNode) {event : Event}
    (hsequence : event.kind ≠ .sequenceEnd) (hmapping : event.kind ≠ .mappingEnd) :
    r.step event = r.readNode event := by
  unfold step
  split
  · exact absurd ‹_› hsequence
  · exact absurd ‹_› hmapping
  · rfl
  next hopened =>
    obtain hne | ⟨hended, hawaits⟩ := h
    · exact absurd hopened hne
    · rw [hended, hawaits]
      rfl

theorem remember_eq (anchor : Nat) (node : Node) (r : ContentReader) :
    r.remember anchor node = { r with anchors := Anchors.remember anchor node r.anchors } := by
  unfold remember Anchors.remember
  split <;> rfl

/-- What is open when a node is handed over is given with it. -/
theorem deliver_opened (node : Option Node) (opened : List (OpenCollection (Option (List String))))
    (r : ContentReader) (before : List (OpenCollection (Option (List String)))) :
    deliver node opened { r with opened := before } = deliver node opened r := by
  induction opened generalizing node r with
  | nil => rfl
  | cons c outer ih =>
      rw [deliver, deliver]
      cases c.add node with
      | some d => rfl
      | none =>
          dsimp only
          rw [remember_eq, remember_eq]
          exact ih (some (c.close none)) { r with anchors := _ }

end ContentReader

namespace Written

open ContentReader (step deliver)

mutual

/-- **Reading the events of a node** where a node is expected hands over its content, and nothing
else happens. -/
theorem foldl_step_events : (w : Written) → ∀ r : ContentReader, r.ExpectsNode →
    w.events.foldl step r =
      deliver (some (w.resolve r.anchors).1) r.opened
        { r with anchors := (w.resolve r.anchors).2 }
  | .scalar mark text style anchor => by
      intro r hr
      have hstep : step r ⟨.scalar text style anchor, mark⟩ = r.readNode _ :=
        ContentReader.step_eq_readNode hr nofun nofun
      rw [events, List.foldl_cons, List.foldl_nil, hstep, resolve]
      dsimp only [ContentReader.readNode]
      rw [ContentReader.remember_eq]
  | .alias mark anchor => by
      intro r hr
      have hstep : step r ⟨.alias anchor, mark⟩ = r.readNode _ :=
        ContentReader.step_eq_readNode hr nofun nofun
      rw [events, List.foldl_cons, List.foldl_nil, hstep]
      rfl
  | .sequence start stop anchor items => by
      intro r hr
      have hstep : step r ⟨.sequenceStart anchor, start⟩ =
          { r with opened := .sequence start.line anchor [] :: r.opened } :=
        ContentReader.step_eq_readNode hr nofun nofun
      rw [events, List.foldl_cons, hstep, List.foldl_append, foldl_step_items items _ rfl,
        List.foldl_cons, List.foldl_nil, List.append_nil]
      -- the end of the sequence hands over what has been read since its beginning
      dsimp only [ContentReader.step, ContentReader.finish, OpenCollection.close,
        OpenCollection.anchor, resolve]
      rw [List.reverse_reverse, ContentReader.remember_eq]
      exact ContentReader.deliver_opened _ _ { r with anchors := _ } _
  | .mapping start stop anchor entries => by
      intro r hr
      have hstep : step r ⟨.mappingStart anchor, start⟩ =
          { r with opened := .mapping start.line anchor [] :: r.opened } :=
        ContentReader.step_eq_readNode hr nofun nofun
      rw [events, List.foldl_cons, hstep, List.foldl_append, foldl_step_entries entries _ rfl,
        List.foldl_cons, List.foldl_nil, List.append_nil]
      dsimp only [ContentReader.step, ContentReader.finish, OpenCollection.close,
        OpenCollection.anchor, resolve]
      rw [List.reverse_reverse, ContentReader.remember_eq]
      exact ContentReader.deliver_opened _ _ { r with anchors := _ } _

/-- Reading the events of some items in an open sequence adds their contents. -/
theorem foldl_step_items : (items : List Written) → ∀ r : ContentReader,
    ∀ {line anchor : Nat} {acc : List Node} {outer : List (OpenCollection (Option (List String)))},
    r.opened = .sequence line anchor acc :: outer →
    (eventsOfItems items).foldl step r =
      { r with
        opened := .sequence line anchor ((resolveItems r.anchors items).1.reverse ++ acc) :: outer
        anchors := (resolveItems r.anchors items).2 }
  | [] => by
      intro r line anchor acc outer hopened
      rw [eventsOfItems, resolveItems, List.reverse_nil, List.nil_append, ← hopened]
      rfl
  | item :: items => by
      intro r line anchor acc outer hopened
      have hitem := foldl_step_events item r (ContentReader.expectsNode_of_opened hopened)
      rw [hopened] at hitem
      rw [eventsOfItems, List.foldl_append, hitem]
      refine (foldl_step_items items _ rfl).trans ?_
      rw [resolveItems]
      dsimp only [deliver, OpenCollection.add]
      rw [List.reverse_cons, List.append_assoc]
      rfl

/-- Reading the events of some entries in an open mapping adds their contents. -/
theorem foldl_step_entries : (entries : List (Written × Written)) → ∀ r : ContentReader,
    ∀ {line anchor : Nat} {acc : List (Node × Node)}
      {outer : List (OpenCollection (Option (List String)))},
    r.opened = .mapping line anchor acc :: outer →
    (eventsOfEntries entries).foldl step r =
      { r with
        opened :=
          .mapping line anchor ((resolveEntries r.anchors entries).1.reverse ++ acc) :: outer
        anchors := (resolveEntries r.anchors entries).2 }
  | [] => by
      intro r line anchor acc outer hopened
      rw [eventsOfEntries, resolveEntries, List.reverse_nil, List.nil_append, ← hopened]
      rfl
  | (key, value) :: entries => by
      intro r line anchor acc outer hopened
      have hkey := foldl_step_events key r (ContentReader.expectsNode_of_opened hopened)
      rw [hopened] at hkey
      rw [eventsOfEntries, List.foldl_append, List.foldl_append, hkey,
        foldl_step_events value _ (ContentReader.expectsNode_of_opened rfl)]
      refine (foldl_step_entries entries _ rfl).trans ?_
      rw [resolveEntries]
      dsimp only [deliver, OpenCollection.add]
      rw [List.reverse_cons, List.append_assoc]
      rfl

end

end Written

/-! ### Reading a stream -/

/-- A document as it is written. -/
structure WrittenDocument where
  start : Mark
  root : Written
  stop : Mark

namespace WrittenDocument

/-- The events of a document. -/
def events (d : WrittenDocument) : List Event :=
  ⟨.documentStart, d.start⟩ :: (d.root.events ++ [⟨.documentEnd, d.stop⟩])

/-- The events of a stream of documents. -/
def stream (start stop : Mark) (docs : List WrittenDocument) : List Event :=
  ⟨.streamStart, start⟩ :: (docs.flatMap events ++ [⟨.streamEnd, stop⟩])

/-- The contents of some documents, one after the other. Anchors stay known. -/
def resolveAll (anchors : Anchors) : List WrittenDocument → List Node × Anchors
  | [] => ([], anchors)
  | d :: docs =>
    let (node, anchors) := d.root.resolve anchors
    let (nodes, anchors) := resolveAll anchors docs
    (node :: nodes, anchors)

open ContentReader (step)

/-- Reading the events of a document between two documents adds its root. -/
theorem foldl_step_events (d : WrittenDocument) (anchors : Anchors) (roots : List Node) :
    d.events.foldl step ⟨anchors, [], false, false, roots⟩ =
      ⟨(d.root.resolve anchors).2, [], false, false, (d.root.resolve anchors).1 :: roots⟩ := by
  have hroot := Written.foldl_step_events d.root ⟨anchors, [], true, false, roots⟩ (.inr ⟨rfl, rfl⟩)
  rw [events, List.foldl_cons, List.foldl_append]
  refine (congrArg (List.foldl step · _) hroot).trans ?_
  rfl

theorem foldl_step_flatMap (docs : List WrittenDocument) (anchors : Anchors) (roots : List Node) :
    (docs.flatMap events).foldl step ⟨anchors, [], false, false, roots⟩ =
      ⟨(resolveAll anchors docs).2, [], false, false,
        (resolveAll anchors docs).1.reverse ++ roots⟩ := by
  induction docs generalizing anchors roots with
  | nil => rfl
  | cons d docs ih =>
      rw [List.flatMap_cons, List.foldl_append, foldl_step_events, ih, resolveAll]
      dsimp only
      rw [List.reverse_cons, List.append_assoc]
      rfl

/-- **Reading the events of a stream** gives its documents, with all aliases resolved. -/
theorem documents_stream (start stop : Mark) (docs : List WrittenDocument) :
    Node.documents (stream start stop docs) = (resolveAll [] docs).1 := by
  have hstart : step .empty ⟨.streamStart, start⟩ = .empty := rfl
  rw [Node.documents, stream, List.foldl_cons, hstart, List.foldl_append, ContentReader.empty,
    foldl_step_flatMap, List.append_nil]
  exact List.reverse_reverse _

end WrittenDocument

end PlaybookLint
