import PlaybookLint.Proofs.Serialization

/-!
# Reading by descent

A stream is read event by event, with a stack of what is open. The same reading can be told as a
descent: to read a node is to read one event, and after the beginning of a collection the nodes in
it, until the collection ends. The relations below say what such a descent comes to, call by call.
Every call has a result, whatever the events are, and it has only one; a call that finds an event
takes at least this event; and reading event by event gives the result of the descent.

## Main definitions

* `NodeRead` - where a node is expected, some node, or none, is read from the next events.
* `ItemsRead`, `EntriesRead` - what is read of an open collection.
* `StreamRead` - what is read of a stream.

## Main statements

* `NodeRead.isSuffix_tail` - reading a node takes at least one event, if there is one.
* `exists_nodeRead`, `NodeRead.unique` - every call has a result, and only one.
* `Written.nodeRead_events_iff` - reading a node takes exactly the events of the node.
* `streamRead_iff` - the documents of a stream are what the descent reads.
* `Node.documents_spec` - all of this together.
-/

namespace PlaybookLint

open Yaml (Event EventKind Mark ScalarStyle)

/-- The event is a node or begins one. -/
def Yaml.EventKind.BeginsNode : EventKind → Prop
  | .scalar .. | .alias .. | .sequenceStart .. | .mappingStart .. => True
  | _ => False

/-! ### The descent -/

mutual

/-- Where a node is expected, `node` is read, with the anchors that are known before and after it,
and `rest` is left of the events. -/
inductive NodeRead : Anchors → List Event → Option Node → Anchors → List Event → Prop
  | exhausted {anchors : Anchors} : NodeRead anchors [] none anchors []
  | scalar {anchors : Anchors} {mark : Mark} {text : String} {style : ScalarStyle} {anchor : Nat}
      {rest : List Event} :
      NodeRead anchors (⟨.scalar text style anchor, mark⟩ :: rest)
        (some (.scalar mark.line none (Scalar.resolve text style)))
        (anchors.remember anchor (.scalar mark.line none (Scalar.resolve text style))) rest
  | alias {anchors : Anchors} {mark : Mark} {anchor : Nat} {rest : List Event} :
      NodeRead anchors (⟨.alias anchor, mark⟩ :: rest)
        (some ((anchors.lookup anchor).getD (.null mark.line))) anchors rest
  | sequence {anchors known : Anchors} {mark : Mark} {anchor : Nat} {events rest : List Event}
      {items : List Node} (inside : ItemsRead anchors events items known rest) :
      NodeRead anchors (⟨.sequenceStart anchor, mark⟩ :: events)
        (some (.sequence mark.line none items))
        (known.remember anchor (.sequence mark.line none items)) rest
  | mapping {anchors known : Anchors} {mark : Mark} {anchor : Nat} {events rest : List Event}
      {entries : List (Node × Node)} (inside : EntriesRead anchors events entries known rest) :
      NodeRead anchors (⟨.mappingStart anchor, mark⟩ :: events)
        (some (.mapping mark.line none entries))
        (known.remember anchor (.mapping mark.line none entries)) rest
  /-- An event that begins no node takes the place of a node. -/
  | missing {anchors : Anchors} {event : Event} {rest : List Event}
      (other : ¬ event.kind.BeginsNode) : NodeRead anchors (event :: rest) none anchors rest

/-- What is read of a sequence that has been opened, up to its end. -/
inductive ItemsRead : Anchors → List Event → List Node → Anchors → List Event → Prop
  | exhausted {anchors : Anchors} : ItemsRead anchors [] [] anchors []
  | stop {anchors : Anchors} {mark : Mark} {rest : List Event} :
      ItemsRead anchors (⟨.sequenceEnd, mark⟩ :: rest) [] anchors rest
  | item {anchors known final : Anchors} {event : Event} {events between rest : List Event}
      {node : Option Node} {items : List Node} (goesOn : event.kind ≠ .sequenceEnd)
      (first : NodeRead anchors (event :: events) node known between)
      (later : ItemsRead known between items final rest) :
      ItemsRead anchors (event :: events) (node.toList ++ items) final rest

/-- What is read of a mapping that has been opened, up to its end. -/
inductive EntriesRead : Anchors → List Event → List (Node × Node) → Anchors → List Event → Prop
  | exhausted {anchors : Anchors} : EntriesRead anchors [] [] anchors []
  | stop {anchors : Anchors} {mark : Mark} {rest : List Event} :
      EntriesRead anchors (⟨.mappingEnd, mark⟩ :: rest) [] anchors rest
  | entry {anchors known after final : Anchors} {event : Event}
      {events middle between rest : List Event} {key value : Node} {entries : List (Node × Node)}
      (goesOn : event.kind ≠ .mappingEnd)
      (first : NodeRead anchors (event :: events) (some key) known middle)
      (second : NodeRead known middle (some value) after between)
      (later : EntriesRead after between entries final rest) :
      EntriesRead anchors (event :: events) ((key, value) :: entries) final rest
  /-- A mapping ends with an entry whose key or value is missing. -/
  | broken {anchors known after : Anchors} {event : Event} {events middle rest : List Event}
      {key value : Option Node} (goesOn : event.kind ≠ .mappingEnd)
      (first : NodeRead anchors (event :: events) key known middle)
      (second : NodeRead known middle value after rest) (lacking : key = none ∨ value = none) :
      EntriesRead anchors (event :: events) [] after rest

end

/-- What is read of a stream: a node at the start of every document, until the stream ends. -/
inductive StreamRead : Anchors → List Event → List Node → Prop
  | exhausted {anchors : Anchors} : StreamRead anchors [] []
  | stop {anchors : Anchors} {mark : Mark} {rest : List Event} :
      StreamRead anchors (⟨.streamEnd, mark⟩ :: rest) []
  | document {anchors known : Anchors} {mark : Mark} {events rest : List Event}
      {node : Option Node} {roots : List Node} (root : NodeRead anchors events node known rest)
      (later : StreamRead known rest roots) :
      StreamRead anchors (⟨.documentStart, mark⟩ :: events) (node.toList ++ roots)
  | between {anchors : Anchors} {event : Event} {events : List Event} {roots : List Node}
      (noStart : event.kind ≠ .documentStart) (noEnd : event.kind ≠ .streamEnd)
      (later : StreamRead anchors events roots) : StreamRead anchors (event :: events) roots

/-! ### Progress -/

mutual

/-- **Reading a node takes an event**: what is left is left after the first one. -/
theorem NodeRead.isSuffix_tail {anchors known : Anchors} {events rest : List Event}
    {node : Option Node} : NodeRead anchors events node known rest → rest <:+ events.tail
  | .exhausted | .scalar | .alias | .missing _ => List.suffix_refl _
  | .sequence inside => inside.isSuffix
  | .mapping inside => inside.isSuffix

theorem ItemsRead.isSuffix {anchors known : Anchors} {events rest : List Event}
    {items : List Node} : ItemsRead anchors events items known rest → rest <:+ events
  | .exhausted => List.suffix_refl _
  | .stop => List.suffix_cons _ _
  | .item _ first later =>
      (later.isSuffix.trans first.isSuffix_tail).trans (List.tail_suffix _)

theorem EntriesRead.isSuffix {anchors known : Anchors} {events rest : List Event}
    {entries : List (Node × Node)} : EntriesRead anchors events entries known rest → rest <:+ events
  | .exhausted => List.suffix_refl _
  | .stop => List.suffix_cons _ _
  | .entry _ first second later => by
      have hmiddle := second.isSuffix_tail.trans (List.tail_suffix _)
      exact ((later.isSuffix.trans hmiddle).trans first.isSuffix_tail).trans (List.tail_suffix _)
  | .broken _ first second _ => by
      have hmiddle := second.isSuffix_tail.trans (List.tail_suffix _)
      exact (hmiddle.trans first.isSuffix_tail).trans (List.tail_suffix _)

end

theorem NodeRead.length_lt {anchors known : Anchors} {event : Event} {events rest : List Event}
    {node : Option Node} (h : NodeRead anchors (event :: events) node known rest) :
    rest.length < (event :: events).length :=
  Nat.lt_succ_of_le h.isSuffix_tail.length_le

theorem NodeRead.length_le {anchors known : Anchors} {events rest : List Event}
    {node : Option Node} (h : NodeRead anchors events node known rest) :
    rest.length ≤ events.length :=
  (h.isSuffix_tail.trans (List.tail_suffix _)).length_le

/-! ### Every call has a result -/

/-- Each of the three calls has a result on some events. -/
def AllRead (events : List Event) : Prop :=
  ∀ anchors, (∃ node known rest, NodeRead anchors events node known rest) ∧
    (∃ items known rest, ItemsRead anchors events items known rest) ∧
    ∃ entries known rest, EntriesRead anchors events entries known rest

/-- A node is read if what its first event opens is. -/
theorem exists_nodeRead_cons (event : Event) {events : List Event} (hinside : AllRead events)
    (anchors : Anchors) :
    ∃ node known rest, NodeRead anchors (event :: events) node known rest := by
  obtain ⟨kind, mark⟩ := event
  obtain ⟨-, ⟨items, known, rest, hitems⟩, entries, known', rest', hentries⟩ := hinside anchors
  cases kind with
  | scalar text style anchor => exact ⟨_, _, _, .scalar⟩
  | «alias» anchor => exact ⟨_, _, _, .alias⟩
  | sequenceStart anchor => exact ⟨_, _, _, .sequence hitems⟩
  | mappingStart anchor => exact ⟨_, _, _, .mapping hentries⟩
  | streamStart | streamEnd | documentStart | documentEnd | sequenceEnd | mappingEnd =>
      exact ⟨_, _, _, .missing id⟩

/-- The induction is on the number of events: a call inside another one, or after it, meets fewer of
them. -/
theorem allRead (events : List Event) : AllRead events := by
  intro anchors
  match events with
  | [] => exact ⟨⟨_, _, _, .exhausted⟩, ⟨_, _, _, .exhausted⟩, _, _, _, .exhausted⟩
  | event :: events =>
      obtain ⟨node, known, between, hfirst⟩ := exists_nodeRead_cons event (allRead events) anchors
      have hlt : between.length < events.length + 1 := hfirst.length_lt
      refine ⟨⟨node, known, between, hfirst⟩, ?_, ?_⟩
      · by_cases hstop : event.kind = .sequenceEnd
        · obtain ⟨kind, mark⟩ := event
          subst hstop
          exact ⟨_, _, _, .stop⟩
        · obtain ⟨-, ⟨items, final, rest, hitems⟩, -⟩ := allRead between known
          exact ⟨_, _, _, .item hstop hfirst hitems⟩
      · by_cases hstop : event.kind = .mappingEnd
        · obtain ⟨kind, mark⟩ := event
          subst hstop
          exact ⟨_, _, _, .stop⟩
        · obtain ⟨⟨value, after, rest, hsecond⟩, -⟩ := allRead between known
          have hle := hsecond.length_le
          obtain ⟨-, -, entries, final, last, hentries⟩ := allRead rest after
          cases node with
          | none => exact ⟨_, _, _, .broken hstop hfirst hsecond (.inl rfl)⟩
          | some key =>
              cases value with
              | none => exact ⟨_, _, _, .broken hstop hfirst hsecond (.inr rfl)⟩
              | some value => exact ⟨_, _, _, .entry hstop hfirst hsecond hentries⟩
termination_by events.length

/-- **Every call has a result**, whatever the events are. -/
theorem exists_nodeRead (anchors : Anchors) (events : List Event) :
    ∃ node known rest, NodeRead anchors events node known rest :=
  (allRead events anchors).1

/-! ### Every call has one result -/

mutual

/-- **A call has only one result.** -/
theorem NodeRead.unique {anchors known known' : Anchors} {events rest rest' : List Event}
    {node node' : Option Node} : NodeRead anchors events node known rest →
    NodeRead anchors events node' known' rest' → node = node' ∧ known = known' ∧ rest = rest'
  | .exhausted, .exhausted | .scalar, .scalar | .alias, .alias => ⟨rfl, rfl, rfl⟩
  | .missing _, .missing _ => ⟨rfl, rfl, rfl⟩
  | .sequence inside, .sequence inside' => by
      obtain ⟨rfl, rfl, rfl⟩ := inside.unique inside'
      exact ⟨rfl, rfl, rfl⟩
  | .mapping inside, .mapping inside' => by
      obtain ⟨rfl, rfl, rfl⟩ := inside.unique inside'
      exact ⟨rfl, rfl, rfl⟩
  | .missing other, .scalar | .missing other, .alias | .missing other, .sequence _
  | .missing other, .mapping _ => (other trivial).elim
  | .scalar, .missing other | .alias, .missing other | .sequence _, .missing other
  | .mapping _, .missing other => (other trivial).elim

theorem ItemsRead.unique {anchors known known' : Anchors} {events rest rest' : List Event}
    {items items' : List Node} : ItemsRead anchors events items known rest →
    ItemsRead anchors events items' known' rest' → items = items' ∧ known = known' ∧ rest = rest'
  | .exhausted, .exhausted | .stop, .stop => ⟨rfl, rfl, rfl⟩
  | .item _ first later, .item _ first' later' => by
      obtain ⟨rfl, rfl, rfl⟩ := first.unique first'
      obtain ⟨rfl, rfl, rfl⟩ := later.unique later'
      exact ⟨rfl, rfl, rfl⟩
  | .stop, .item goesOn _ _ | .item goesOn _ _, .stop => (goesOn rfl).elim

theorem EntriesRead.unique {anchors known known' : Anchors} {events rest rest' : List Event}
    {entries entries' : List (Node × Node)} : EntriesRead anchors events entries known rest →
    EntriesRead anchors events entries' known' rest' →
    entries = entries' ∧ known = known' ∧ rest = rest'
  | .exhausted, .exhausted | .stop, .stop => ⟨rfl, rfl, rfl⟩
  | .entry _ first second later, .entry _ first' second' later' => by
      obtain ⟨hkey, rfl, rfl⟩ := first.unique first'
      obtain ⟨hvalue, rfl, rfl⟩ := second.unique second'
      obtain ⟨rfl, rfl, rfl⟩ := later.unique later'
      cases hkey
      cases hvalue
      exact ⟨rfl, rfl, rfl⟩
  | .broken _ first second _, .broken _ first' second' _ => by
      obtain ⟨-, rfl, rfl⟩ := first.unique first'
      obtain ⟨-, rfl, rfl⟩ := second.unique second'
      exact ⟨rfl, rfl, rfl⟩
  | .entry _ first second _, .broken _ first' second' lacking => by
      obtain ⟨rfl, rfl, rfl⟩ := first.unique first'
      obtain ⟨rfl, rfl, rfl⟩ := second.unique second'
      simp at lacking
  | .broken _ first second lacking, .entry _ first' second' _ => by
      obtain ⟨rfl, rfl, rfl⟩ := first.unique first'
      obtain ⟨rfl, rfl, rfl⟩ := second.unique second'
      simp at lacking
  | .stop, .entry goesOn _ _ _ | .stop, .broken goesOn _ _ _ => (goesOn rfl).elim
  | .entry goesOn _ _ _, .stop | .broken goesOn _ _ _, .stop => (goesOn rfl).elim

end

/-! ### Nodes as they are written -/

namespace Written

/-- A node begins with an event that begins a node. -/
theorem exists_events_beginsNode (w : Written) :
    ∃ event later, w.events = event :: later ∧ event.kind.BeginsNode := by
  cases w <;> exact ⟨_, _, rfl, trivial⟩

mutual

/-- What is written as a node is read as one, and nothing else is taken. -/
theorem nodeRead_events (anchors : Anchors) (later : List Event) : (w : Written) →
    NodeRead anchors (w.events ++ later) (some (w.resolve anchors).1) (w.resolve anchors).2 later
  | .scalar .. => .scalar
  | .alias .. => .alias
  | .sequence start stop anchor items => by
      rw [events, List.cons_append, List.append_assoc]
      exact .sequence (itemsRead_events anchors stop later items)
  | .mapping start stop anchor entries => by
      rw [events, List.cons_append, List.append_assoc]
      exact .mapping (entriesRead_events anchors stop later entries)

theorem itemsRead_events (anchors : Anchors) (stop : Mark) (later : List Event) :
    (items : List Written) →
    ItemsRead anchors (eventsOfItems items ++ ([⟨.sequenceEnd, stop⟩] ++ later))
      (resolveItems anchors items).1 (resolveItems anchors items).2 later
  | [] => .stop
  | item :: items => by
      have hitem := nodeRead_events anchors
        (eventsOfItems items ++ ([⟨.sequenceEnd, stop⟩] ++ later)) item
      have hitems := itemsRead_events (item.resolve anchors).2 stop later items
      rw [eventsOfItems, List.append_assoc]
      obtain ⟨event, others, hevents, hbegins⟩ := exists_events_beginsNode item
      rw [hevents] at hitem ⊢
      refine .item (fun hstop => ?_) hitem hitems
      rw [hstop] at hbegins
      exact hbegins

theorem entriesRead_events (anchors : Anchors) (stop : Mark) (later : List Event) :
    (entries : List (Written × Written)) →
    EntriesRead anchors (eventsOfEntries entries ++ ([⟨.mappingEnd, stop⟩] ++ later))
      (resolveEntries anchors entries).1 (resolveEntries anchors entries).2 later
  | [] => .stop
  | (key, value) :: entries => by
      have hkey := nodeRead_events anchors
        (value.events ++ (eventsOfEntries entries ++ ([⟨.mappingEnd, stop⟩] ++ later))) key
      have hvalue := nodeRead_events (key.resolve anchors).2
        (eventsOfEntries entries ++ ([⟨.mappingEnd, stop⟩] ++ later)) value
      have hentries :=
        entriesRead_events (value.resolve (key.resolve anchors).2).2 stop later entries
      rw [eventsOfEntries, List.append_assoc, List.append_assoc]
      obtain ⟨event, others, hevents, hbegins⟩ := exists_events_beginsNode key
      rw [hevents] at hkey ⊢
      refine .entry (fun hstop => ?_) hkey hvalue hentries
      rw [hstop] at hbegins
      exact hbegins

end

/-- **A node takes exactly its own events**, and gives its content. -/
theorem nodeRead_events_iff (w : Written) {anchors known : Anchors} {later rest : List Event}
    {node : Option Node} : NodeRead anchors (w.events ++ later) node known rest ↔
      node = some (w.resolve anchors).1 ∧ known = (w.resolve anchors).2 ∧ rest = later := by
  have hread := nodeRead_events anchors later w
  constructor
  · exact fun h => h.unique hread
  · rintro ⟨rfl, rfl, rfl⟩
    exact hread

end Written

/-! ### Agreement with the reader -/

theorem reverse_toList (o : Option α) : o.toList.reverse = o.toList := by
  cases o <;> rfl

namespace OpenCollection

theorem add_entry_of_lacking {key value : Option (Tree α)} (h : key = none ∨ value = none)
    (line anchor : Nat) (entries : List (Tree α × Tree α)) :
    (OpenCollection.entry line anchor entries key).add value = none := by
  rcases h with rfl | rfl
  · rfl
  · cases key <;> rfl

theorem closeAround_none (note : α) (c : OpenCollection α) :
    c.closeAround note none = c.close note := by
  cases c with
  | entry line anchor entries key => cases key <;> rfl
  | sequence | mapping => rfl

end OpenCollection

namespace ContentReader

open OpenCollection (closeAll)

/-- The roots, in order, if some events are still to be read. -/
def documentsFrom (r : ContentReader) (events : List Event) : List Node :=
  (events.foldl step r).documents

@[simp] theorem documentsFrom_nil (r : ContentReader) : r.documentsFrom [] = r.documents :=
  rfl

theorem documentsFrom_cons (r : ContentReader) (event : Event) (events : List Event) :
    r.documentsFrom (event :: events) = (r.step event).documentsFrom events :=
  rfl

/-- What has been handed over closes what is open, if the events run out. -/
theorem documents_deliver (node : Option Node)
    (opened : List (OpenCollection (Option (List String)))) (r : ContentReader) :
    (deliver node opened r).documents =
      ((opened.foldl (fun inner c => some (c.closeAround none inner)) node).toList ++
        r.roots).reverse := by
  induction opened generalizing node r with
  | nil => rfl
  | cons c outer ih =>
      rw [deliver, List.foldl_cons, OpenCollection.closeAround]
      cases c.add node with
      | none =>
          rw [remember_eq]
          exact ih _ _
      | some d =>
          show ((closeAll none (d :: outer)).toList ++ r.roots).reverse = _
          rw [closeAll, List.foldl_cons, OpenCollection.closeAround_none]
          rfl

/-- The end of the events is a node that is missing. -/
theorem documents_deliver_none (r : ContentReader) :
    (deliver none r.opened r).documents = r.documents :=
  documents_deliver none r.opened r

/-- Hands over a finished node that has an anchor, or not, and remembers it beside what is known. -/
def conclude (node : Node) (anchor : Nat) (known : Anchors)
    (outer : List (OpenCollection (Option (List String)))) (r : ContentReader) : ContentReader :=
  deliver (some node) outer { r with anchors := known.remember anchor node }

theorem finish_eq (c : OpenCollection (Option (List String)))
    (outer : List (OpenCollection (Option (List String)))) (r : ContentReader) :
    finish c outer r = conclude (c.close none) c.anchor r.anchors outer r := by
  rw [finish, remember_eq, conclude]

/-- What has been open before and known before does not matter. -/
theorem conclude_with (node : Node) (anchor : Nat) (known : Anchors)
    (outer : List (OpenCollection (Option (List String)))) (r : ContentReader) (before : Anchors)
    (opened : List (OpenCollection (Option (List String)))) :
    conclude node anchor known outer { r with anchors := before, opened := opened } =
      conclude node anchor known outer r :=
  deliver_opened _ _ { r with anchors := _ } opened

/-- The end of the events ends the innermost collection. -/
theorem documents_conclude (r : ContentReader) (c : OpenCollection (Option (List String)))
    (outer : List (OpenCollection (Option (List String)))) (known : Anchors) :
    (conclude (c.close none) c.anchor known outer r).documents =
      documents { r with anchors := known, opened := c :: outer } := by
  rw [conclude, documents_deliver, documents, closeAll, List.foldl_cons,
    OpenCollection.closeAround_none]

theorem readNode_of_not_beginsNode {r : ContentReader} {event : Event}
    (h : ¬ event.kind.BeginsNode) : r.readNode event = deliver none r.opened r := by
  unfold readNode
  cases hkind : event.kind with
  | scalar | «alias» | sequenceStart | mappingStart =>
      rw [hkind] at h
      exact absurd trivial h
  | _ => rfl

/-- The next event, if there is one, is read where a node is expected. -/
def AtNode (r : ContentReader) (events : List Event) : Prop :=
  ∀ event ∈ events.head?, r.step event = r.readNode event

theorem atNode_of_sequence {r : ContentReader} {line anchor : Nat} {acc : List Node}
    {outer : List (OpenCollection (Option (List String)))}
    (hopened : r.opened = .sequence line anchor acc :: outer) {event : Event}
    (h : event.kind ≠ .sequenceEnd) (events : List Event) : r.AtNode (event :: events) := by
  rintro _ ⟨⟩
  rw [step, hopened]
  cases hkind : event.kind <;> first | rfl | exact absurd hkind h

theorem atNode_of_mapping {r : ContentReader} {line anchor : Nat} {acc : List (Node × Node)}
    {outer : List (OpenCollection (Option (List String)))}
    (hopened : r.opened = .mapping line anchor acc :: outer) {event : Event}
    (h : event.kind ≠ .mappingEnd) (events : List Event) : r.AtNode (event :: events) := by
  rintro _ ⟨⟩
  rw [step, hopened]
  cases hkind : event.kind <;> first | rfl | exact absurd hkind h

theorem atNode_of_entry {r : ContentReader} {line anchor : Nat} {acc : List (Node × Node)}
    {key : Option Node} {outer : List (OpenCollection (Option (List String)))}
    (hopened : r.opened = .entry line anchor acc key :: outer) (events : List Event) :
    r.AtNode events := by
  intro event _
  rw [step, hopened]

theorem AtNode.documentsFrom_cons {r : ContentReader} {event : Event} {events : List Event}
    (h : r.AtNode (event :: events)) :
    r.documentsFrom (event :: events) = (r.readNode event).documentsFrom events := by
  rw [ContentReader.documentsFrom_cons, h event rfl]

end ContentReader

open ContentReader (deliver conclude documentsFrom)

mutual

/-- **Reading event by event hands over what a descent reads**, and goes on with what it leaves. -/
theorem NodeRead.documentsFrom_eq {anchors known : Anchors} {events rest : List Event}
    {node : Option Node} : NodeRead anchors events node known rest → ∀ r : ContentReader,
      ContentReader.AtNode { r with anchors := anchors } events →
      documentsFrom { r with anchors := anchors } events =
        documentsFrom (deliver node r.opened { r with anchors := known }) rest
  | .exhausted => by
      intro r _
      exact (ContentReader.documents_deliver_none { r with anchors := anchors }).symm
  | .scalar => by
      intro r hr
      rw [hr.documentsFrom_cons]
      dsimp only [ContentReader.readNode]
      rw [ContentReader.remember_eq]
  | .alias => by
      intro r hr
      rw [hr.documentsFrom_cons]
      rfl
  | .sequence inside => by
      intro r hr
      rw [hr.documentsFrom_cons]
      exact inside.documentsFrom_eq r _ _ [] r.opened
  | .mapping inside => by
      intro r hr
      rw [hr.documentsFrom_cons]
      exact inside.documentsFrom_eq r _ _ [] r.opened
  | .missing other => by
      intro r hr
      rw [hr.documentsFrom_cons, ContentReader.readNode_of_not_beginsNode other]

/-- In an open sequence with some items, the descent reads the other ones. -/
theorem ItemsRead.documentsFrom_eq {anchors known : Anchors} {events rest : List Event}
    {items : List Node} : ItemsRead anchors events items known rest →
    ∀ (r : ContentReader) (line anchor : Nat) (acc : List Node)
      (outer : List (OpenCollection (Option (List String)))),
      documentsFrom { r with anchors := anchors, opened := .sequence line anchor acc :: outer }
          events =
        documentsFrom (conclude (.sequence line none (acc.reverse ++ items)) anchor known outer r)
          rest
  | .exhausted => by
      intro r line anchor acc outer
      rw [List.append_nil]
      exact (ContentReader.documents_conclude r (.sequence line anchor acc) outer anchors).symm
  | .stop => by
      intro r line anchor acc outer
      rw [List.append_nil, ContentReader.documentsFrom_cons, ContentReader.step]
      dsimp only
      rw [ContentReader.finish_eq, ContentReader.conclude_with]
      rfl
  | .item goesOn first later => by
      intro r line anchor acc outer
      refine (first.documentsFrom_eq { r with opened := .sequence line anchor acc :: outer }
        (ContentReader.atNode_of_sequence rfl goesOn _)).trans ?_
      refine (later.documentsFrom_eq r line anchor _ outer).trans ?_
      rw [List.reverse_append, List.append_assoc, reverse_toList]

/-- In an open mapping with some entries, the descent reads the other ones. -/
theorem EntriesRead.documentsFrom_eq {anchors known : Anchors} {events rest : List Event}
    {entries : List (Node × Node)} : EntriesRead anchors events entries known rest →
    ∀ (r : ContentReader) (line anchor : Nat) (acc : List (Node × Node))
      (outer : List (OpenCollection (Option (List String)))),
      documentsFrom { r with anchors := anchors, opened := .mapping line anchor acc :: outer }
          events =
        documentsFrom (conclude (.mapping line none (acc.reverse ++ entries)) anchor known outer r)
          rest
  | .exhausted => by
      intro r line anchor acc outer
      rw [List.append_nil]
      exact (ContentReader.documents_conclude r (.mapping line anchor acc) outer anchors).symm
  | .stop => by
      intro r line anchor acc outer
      rw [List.append_nil, ContentReader.documentsFrom_cons, ContentReader.step]
      dsimp only
      rw [ContentReader.finish_eq, ContentReader.conclude_with]
      rfl
  | .entry goesOn first second later => by
      intro r line anchor acc outer
      refine (first.documentsFrom_eq { r with opened := .mapping line anchor acc :: outer }
        (ContentReader.atNode_of_mapping rfl goesOn _)).trans ?_
      refine (second.documentsFrom_eq { r with opened := .entry line anchor acc (some _) :: outer }
        (ContentReader.atNode_of_entry rfl _)).trans ?_
      refine (later.documentsFrom_eq r line anchor _ outer).trans ?_
      rw [List.reverse_cons, List.append_assoc, List.singleton_append]
  | .broken goesOn first second lacking => by
      intro r line anchor acc outer
      refine (first.documentsFrom_eq { r with opened := .mapping line anchor acc :: outer }
        (ContentReader.atNode_of_mapping rfl goesOn _)).trans ?_
      refine (second.documentsFrom_eq { r with opened := .entry line anchor acc _ :: outer }
        (ContentReader.atNode_of_entry rfl _)).trans ?_
      -- the missing part ends the mapping
      rw [deliver, OpenCollection.add_entry_of_lacking lacking, List.append_nil]
      dsimp only
      rw [ContentReader.remember_eq]
      exact congrArg (documentsFrom · _) (ContentReader.conclude_with _ _ _ _ r _ _)

end

/-- Nothing is read after the end of the stream. -/
theorem ContentReader.documentsFrom_of_ended {r : ContentReader} (hopened : r.opened = [])
    (hended : r.ended = true) (events : List Event) : r.documentsFrom events = r.documents := by
  induction events with
  | nil => rfl
  | cons event events ih =>
      have hstep : r.step event = r := by
        rw [step, hopened, hended]
        rfl
      rw [documentsFrom_cons, hstep, ih]

/-- **The documents of a stream are what the descent reads** of it. -/
theorem StreamRead.documentsFrom_eq {anchors : Anchors} {events : List Event} {roots : List Node}
    (h : StreamRead anchors events roots) (before : List Node) :
    ContentReader.documentsFrom ⟨anchors, [], false, false, before⟩ events =
      before.reverse ++ roots := by
  induction h generalizing before with
  | exhausted => simp [ContentReader.documents, OpenCollection.closeAll]
  | stop =>
      rw [ContentReader.documentsFrom_cons]
      refine (ContentReader.documentsFrom_of_ended rfl rfl _).trans ?_
      simp [ContentReader.step, ContentReader.readBetween, ContentReader.documents,
        OpenCollection.closeAll]
  | @document anchors known mark events rest node roots root _ ih =>
      have hstart : ContentReader.step ⟨anchors, [], false, false, before⟩ ⟨.documentStart, mark⟩ =
          ⟨anchors, [], true, false, before⟩ := rfl
      have hroot := root.documentsFrom_eq ⟨[], [], true, false, before⟩ fun _ _ => rfl
      rw [ContentReader.documentsFrom_cons, hstart, hroot]
      refine (ih (node.toList ++ before)).trans ?_
      cases node <;> simp
  | @between anchors event events roots noStart noEnd _ ih =>
      have hstep : ContentReader.step ⟨anchors, [], false, false, before⟩ event =
          ⟨anchors, [], false, false, before⟩ := by
        show ContentReader.readBetween _ event = _
        unfold ContentReader.readBetween
        split
        next hkind => exact absurd hkind noStart
        next hkind => exact absurd hkind noEnd
        next => rfl
      rw [ContentReader.documentsFrom_cons, hstep, ih]

theorem exists_streamRead (anchors : Anchors) (events : List Event) :
    ∃ roots, StreamRead anchors events roots := by
  match events with
  | [] => exact ⟨_, .exhausted⟩
  | ⟨kind, mark⟩ :: events =>
      by_cases hstop : kind = .streamEnd
      · subst hstop
        exact ⟨_, .stop⟩
      by_cases hstart : kind = .documentStart
      · subst hstart
        obtain ⟨node, known, rest, hroot⟩ := exists_nodeRead anchors events
        have hle := hroot.length_le
        obtain ⟨roots, hroots⟩ := exists_streamRead known rest
        exact ⟨_, .document hroot hroots⟩
      · obtain ⟨roots, hroots⟩ := exists_streamRead anchors events
        exact ⟨_, .between hstart hstop hroots⟩
termination_by events.length

/-- **The documents of a list of events**, well formed or not, are what the descent reads of it. -/
theorem streamRead_iff {events : List Event} {roots : List Node} :
    StreamRead [] events roots ↔ roots = Node.documents events := by
  have hdocuments : ∀ {roots : List Node}, StreamRead [] events roots →
      roots = Node.documents events := fun h => (h.documentsFrom_eq []).symm
  constructor
  · exact hdocuments
  · rintro rfl
    obtain ⟨roots, hroots⟩ := exists_streamRead [] events
    rwa [← hdocuments hroots]

/-- **Loading inverts writing.**  The documents of a stream are read as they are written, every
alias a copy of the last finished node with its anchor. Told as a descent, reading a node takes
exactly the events of the node. Whatever the events are, the descent comes to an end, with the
documents that are loaded; each call in it has one result, and what it leaves is left after the
first event that it finds. -/
theorem Node.documents_spec :
    (∀ start stop docs, Node.documents (WrittenDocument.stream start stop docs) =
      (WrittenDocument.resolveAll [] docs).1) ∧
    (∀ (w : Written) (anchors known : Anchors) (later rest : List Event) (node : Option Node),
      NodeRead anchors (w.events ++ later) node known rest ↔
        node = some (w.resolve anchors).1 ∧ known = (w.resolve anchors).2 ∧ rest = later) ∧
    (∀ events roots, StreamRead [] events roots ↔ roots = Node.documents events) ∧
    ∀ anchors events, ∃ node known rest, rest <:+ events.tail ∧
      ∀ node' known' rest', NodeRead anchors events node' known' rest' ↔
        node' = node ∧ known' = known ∧ rest' = rest := by
  refine ⟨WrittenDocument.documents_stream, fun w _ _ _ _ _ => w.nodeRead_events_iff,
    fun _ _ => streamRead_iff, fun anchors events => ?_⟩
  obtain ⟨node, known, rest, hread⟩ := exists_nodeRead anchors events
  refine ⟨node, known, rest, hread.isSuffix_tail, fun node' known' rest' => ?_⟩
  constructor
  · exact fun h => h.unique hread
  · rintro ⟨rfl, rfl, rfl⟩
    exact hread

/-- Inside its own anchor an alias is null, in a later document a copy. -/
example :
    let mark (line : Nat) : Mark := ⟨0, line, 0⟩
    let list : Written := .sequence (mark 1) (mark 3) 1 [.alias (mark 2) 1]
    let other : Written := .alias (mark 4) 1
    Node.documents (WrittenDocument.stream (mark 1) (mark 5)
        [⟨mark 1, list, mark 3⟩, ⟨mark 4, other, mark 5⟩]) =
      [.sequence 1 none [Node.null 2], .sequence 1 none [Node.null 2]] :=
  rfl

end PlaybookLint
