import PlaybookLint.Node
import PlaybookLint.Proofs.Placement

/-!
# Two readings of one stream

A stream of events is read twice, for its content and for its comments. The two readers move in
lock step: forgetting the comments and the mask turns every state of one into the state of the
other. Placing comments changes notes only. Both readings therefore give the same trees, whatever
the events are.

## Main statements

* `CommentReader.content_step` - one event keeps the readers in step.
* `CommentReader.content_run` - so does a whole stream.
* `CommentReader.bare_documents` - what has just been read holds no comments.
* `documents_agree` - both readings of a stream have the same documents.
* `CommentTree.comments_documents` - the documents of a text hold every comment of the text.
-/

namespace PlaybookLint

open Yaml (Event)

/-! ### Open collections under a change of notes -/

namespace OpenCollection

/-- The collection with `f` applied to every note in it. -/
def map (f : α → β) : OpenCollection α → OpenCollection β
  | .sequence line anchor items => .sequence line anchor (items.map (Tree.map f))
  | .mapping line anchor entries =>
    .mapping line anchor (entries.map (Prod.map (Tree.map f) (Tree.map f)))
  | .entry line anchor entries key =>
    .entry line anchor (entries.map (Prod.map (Tree.map f) (Tree.map f))) (key.map (Tree.map f))

@[simp] theorem anchor_map (f : α → β) (c : OpenCollection α) : (c.map f).anchor = c.anchor := by
  cases c <;> rfl

theorem add_map (f : α → β) (node : Option (Tree α)) (c : OpenCollection α) :
    (c.map f).add (node.map (Tree.map f)) = (c.add node).map (map f) := by
  cases c with
  | sequence line anchor items => cases node <;> simp [map, add]
  | mapping line anchor entries => simp [map, add]
  | entry line anchor entries key => cases key <;> cases node <;> simp [map, add]

theorem close_map (f : α → β) (note : α) (c : OpenCollection α) :
    (c.map f).close (f note) = (c.close note).map f := by
  cases c <;> simp [map, close]

theorem closeAround_map (f : α → β) (note : α) (inner : Option (Tree α)) (c : OpenCollection α) :
    (c.map f).closeAround (f note) (inner.map (Tree.map f)) = (c.closeAround note inner).map f := by
  rw [closeAround, closeAround, add_map, ← close_map]
  cases c.add inner <;> rfl

theorem closeAll_map (f : α → β) (note : α) (opened : List (OpenCollection α)) :
    closeAll (f note) (opened.map (map f)) = (closeAll note opened).map (Tree.map f) := by
  unfold closeAll
  suffices h : ∀ inner : Option (Tree α),
      (opened.map (map f)).foldl (fun inner c => some (c.closeAround (f note) inner))
          (inner.map (Tree.map f)) =
        (opened.foldl (fun inner c => some (c.closeAround note inner)) inner).map (Tree.map f) from
    h none
  induction opened with
  | nil => exact fun _ => rfl
  | cons c opened ih =>
      intro inner
      rw [List.map_cons, List.foldl_cons, List.foldl_cons, closeAround_map]
      exact ih (some (c.closeAround note inner))

end OpenCollection

/-! ### The readers in lock step -/

/-- The node without its comments: content to which no list has been attached. -/
def Tree.content (node : CommentNode) : Node :=
  node.map fun _ => none

@[simp] theorem Tree.erase_content (node : CommentNode) : node.content.erase = node.erase :=
  Tree.erase_map _ node

theorem lookup_map_snd (f : α → β) (key : Nat) (l : List (Nat × α)) :
    (l.map (Prod.map id f)).lookup key = (l.lookup key).map f := by
  induction l with
  | nil => rfl
  | cons entry l ih =>
      obtain ⟨k, value⟩ := entry
      rw [List.map_cons, Prod.map, List.lookup_cons, List.lookup_cons, id_eq, ih]
      cases key == k <;> rfl

namespace CommentReader

/-- What a reader of comments knows about the content. -/
def content (r : CommentReader) : ContentReader where
  anchors := r.anchors.map (Prod.map id Tree.content)
  opened := r.opened.map (OpenCollection.map fun _ => none)
  awaitsRoot := r.awaitsRoot
  ended := r.ended
  roots := r.roots.map Tree.content

theorem content_remember (anchor : Nat) (node : CommentNode) (r : CommentReader) :
    (r.remember anchor node).content = r.content.remember anchor node.content := by
  unfold remember ContentReader.remember
  split <;> simp [content]

/-- **Handing over in step.**  A node goes to the same collection for both readers, and ends the
same mappings on its way there. -/
theorem content_deliver (node : Option CommentNode) (opened : List (OpenCollection (List Comment)))
    (r : CommentReader) :
    (deliver node opened r).content =
      ContentReader.deliver (node.map Tree.content)
        (opened.map (OpenCollection.map fun _ => none)) r.content := by
  induction opened generalizing node r with
  | nil =>
      rw [List.map_nil, deliver, ContentReader.deliver]
      cases node <;> simp [content]
  | cons c outer ih =>
      have hadd : (c.map fun _ => none).add (node.map Tree.content) =
          (c.add node).map (OpenCollection.map fun _ => none) :=
        OpenCollection.add_map _ node c
      have hclose : (c.map fun _ => none).close none = (c.close []).content :=
        OpenCollection.close_map _ [] c
      rw [List.map_cons, deliver, ContentReader.deliver, hadd]
      cases c.add node with
      | some d => rfl
      | none =>
          -- the mapping that ends is itself handed on
          simp only [Option.map_none, OpenCollection.anchor_map, hclose]
          rw [ih, content_remember, Option.map_some]

theorem content_finish (c : OpenCollection (List Comment))
    (outer : List (OpenCollection (List Comment))) (r : CommentReader) :
    (r.finish c outer).content =
      r.content.finish (c.map fun _ => none) (outer.map (OpenCollection.map fun _ => none)) := by
  have hclose : (c.map fun _ => none).close none = (c.close []).content :=
    OpenCollection.close_map _ [] c
  rw [finish, ContentReader.finish, content_deliver, content_remember, hclose,
    OpenCollection.anchor_map, Option.map_some]

theorem content_readNode (source : List Char) (lines : List Line) (r : CommentReader)
    (event : Event) :
    (r.readNode source lines event).content = r.content.readNode event := by
  unfold readNode ContentReader.readNode
  cases event.kind with
  | scalar text style anchor =>
      -- the mask grows, and the content does not show it
      simp only []
      rw [content_deliver, content_remember]
      rfl
  | «alias» anchor =>
      simp only []
      rw [content_deliver]
      have hlookup := lookup_map_snd Tree.content anchor r.anchors
      simp only [content, hlookup, Option.map_some]
      cases r.anchors.lookup anchor <;> rfl
  | sequenceStart anchor => rfl
  | mappingStart anchor => rfl
  | streamStart | streamEnd | documentStart | documentEnd | sequenceEnd | mappingEnd =>
      exact content_deliver none r.opened r

theorem content_readBetween (r : CommentReader) (event : Event) :
    (r.readBetween event).content = r.content.readBetween event := by
  unfold readBetween ContentReader.readBetween
  cases event.kind <;> rfl

/-- **The step lemma.**  Reading one event keeps the two readers in step. -/
theorem content_step (source : List Char) (lines : List Line) (r : CommentReader)
    (event : Event) :
    (r.step source lines event).content = r.content.step event := by
  obtain ⟨anchors, opened, awaitsRoot, ended, roots, mask⟩ := r
  unfold step ContentReader.step
  -- the cases are those of `step`: what is open decides which events end something
  cases opened with
  | nil =>
      cases ended with
      | true => rfl
      | false =>
          cases awaitsRoot with
          | true => exact content_readNode source lines _ event
          | false => exact content_readBetween _ event
  | cons c outer =>
      cases c with
      | sequence line anchor items =>
          cases hkind : event.kind with
          | sequenceEnd => exact content_finish _ outer _
          | _ => exact content_readNode source lines _ event
      | mapping line anchor entries =>
          cases hkind : event.kind with
          | mappingEnd => exact content_finish _ outer _
          | _ => exact content_readNode source lines _ event
      | entry line anchor entries key => exact content_readNode source lines _ event

/-- **The run lemma.**  Reading a whole stream keeps the two readers in step. -/
theorem content_run (source : List Char) (lines : List Line) (events : List Event) :
    (run source lines events).content = events.foldl ContentReader.step .empty := by
  rw [run]
  exact (List.foldl_hom content fun r event =>
    (content_step source lines r event).symm).symm

/-- Before any comment is placed, the documents read for their comments are the documents read for
their content. -/
theorem content_documents (source : List Char) (lines : List Line) (events : List Event) :
    (run source lines events).documents.map Tree.content = Node.documents events := by
  rw [Node.documents, ← content_run source lines events]
  have hopen : OpenCollection.closeAll none (run source lines events).content.opened =
      (OpenCollection.closeAll [] (run source lines events).opened).map Tree.content :=
    OpenCollection.closeAll_map (fun _ => none) [] _
  rw [documents, ContentReader.documents, hopen, List.map_reverse, List.map_append]
  cases OpenCollection.closeAll [] (run source lines events).opened <;> rfl

end CommentReader

/-! ### Nothing is commented before placing -/

/-- No comments, whatever they were. -/
def forgetComments (_ : List Comment) : List Comment :=
  []

namespace Tree

/-- A node in which no comment has been placed, and in no key of it either. -/
def Bare (node : CommentNode) : Prop :=
  node.map forgetComments = node

mutual

theorem comments_forget : (node : CommentNode) → (node.map forgetComments).comments = []
  | .scalar .. => rfl
  | .sequence _ _ items => commentsOfItems_forget items
  | .mapping _ _ entries => commentsOfEntries_forget entries

theorem commentsOfItems_forget : (items : List CommentNode) →
    commentsOfItems (mapItems forgetComments items) = []
  | [] => rfl
  | item :: items => by
      rw [mapItems, commentsOfItems, comments_forget item, commentsOfItems_forget items,
        List.append_nil]

theorem commentsOfEntries_forget : (entries : List (CommentNode × CommentNode)) →
    commentsOfEntries (mapEntries forgetComments entries) = []
  | [] => rfl
  | (_, value) :: entries => by
      rw [mapEntries, commentsOfEntries, comments_forget value, commentsOfEntries_forget entries,
        List.append_nil]

end

theorem Bare.comments_eq_nil {node : CommentNode} (h : node.Bare) : node.comments = [] := by
  rw [← h, comments_forget]

end Tree

namespace OpenCollection

/-- A collection in which no comment has been placed. -/
def Bare (c : OpenCollection (List Comment)) : Prop :=
  c.map forgetComments = c

theorem map_eq_self_of_bare {node : Option CommentNode} (h : ∀ t ∈ node, t.Bare) :
    node.map (Tree.map forgetComments) = node := by
  cases node with
  | none => rfl
  | some t => exact congrArg some (h t rfl)

theorem Bare.add {c d : OpenCollection (List Comment)} {node : Option CommentNode} (hc : c.Bare)
    (hnode : ∀ t ∈ node, t.Bare) (h : c.add node = some d) : d.Bare := by
  have hadd := add_map forgetComments node c
  rw [hc, map_eq_self_of_bare hnode, h] at hadd
  exact (Option.some.inj hadd).symm

theorem Bare.close {c : OpenCollection (List Comment)} (hc : c.Bare) : (c.close []).Bare := by
  have hclose := close_map forgetComments [] c
  rw [hc] at hclose
  exact hclose.symm

theorem bare_closeAll {opened : List (OpenCollection (List Comment))} (h : ∀ c ∈ opened, c.Bare) :
    ∀ t ∈ closeAll [] opened, t.Bare := by
  have hopened : opened.map (map forgetComments) = opened :=
    (List.map_congr_left h).trans (List.map_id opened)
  have hclose : closeAll [] (opened.map (map forgetComments)) = _ :=
    closeAll_map forgetComments [] opened
  intro t ht
  rw [hopened, Option.mem_def.mp ht, Option.map_some] at hclose
  exact (Option.some.inj hclose).symm

end OpenCollection

namespace CommentReader

/-- A reader in none of whose nodes a comment has been placed. -/
structure Bare (r : CommentReader) : Prop where
  anchors : ∀ e ∈ r.anchors, e.2.Bare
  opened : ∀ c ∈ r.opened, c.Bare
  roots : ∀ t ∈ r.roots, t.Bare

theorem Bare.remember {r : CommentReader} (hr : r.Bare) (anchor : Nat) {node : CommentNode}
    (hnode : node.Bare) : (r.remember anchor node).Bare := by
  unfold CommentReader.remember
  split
  · exact ⟨List.forall_mem_cons.mpr ⟨hnode, hr.anchors⟩, hr.opened, hr.roots⟩
  · exact hr

theorem Bare.deliver {r : CommentReader} (hr : r.Bare) {node : Option CommentNode}
    (hnode : ∀ t ∈ node, t.Bare) {opened : List (OpenCollection (List Comment))}
    (hopened : ∀ c ∈ opened, c.Bare) : (deliver node opened r).Bare := by
  induction opened generalizing node r with
  | nil =>
      refine ⟨hr.anchors, nofun, fun t ht => ?_⟩
      rw [CommentReader.deliver, List.mem_append, Option.mem_toList] at ht
      exact ht.elim (hnode t) (hr.roots t)
  | cons c outer ih =>
      obtain ⟨hc, houter⟩ := List.forall_mem_cons.mp hopened
      rw [CommentReader.deliver]
      cases h : c.add node with
      | some d =>
          exact ⟨hr.anchors, List.forall_mem_cons.mpr ⟨hc.add hnode h, houter⟩, hr.roots⟩
      | none =>
          refine ih (hr.remember c.anchor hc.close) (fun t ht => ?_) houter
          cases ht
          exact hc.close

theorem Bare.finish {r : CommentReader} (hr : r.Bare) {c : OpenCollection (List Comment)}
    {outer : List (OpenCollection (List Comment))} (hopened : ∀ d ∈ c :: outer, d.Bare) :
    (r.finish c outer).Bare := by
  obtain ⟨hc, houter⟩ := List.forall_mem_cons.mp hopened
  refine (hr.remember c.anchor hc.close).deliver (fun t ht => ?_) houter
  cases ht
  exact hc.close

theorem Bare.readNode {r : CommentReader} (hr : r.Bare) (source : List Char) (lines : List Line)
    (event : Event) : (r.readNode source lines event).Bare := by
  unfold CommentReader.readNode
  cases event.kind with
  | scalar text style anchor =>
      have hmask : Bare { r with mask := r.mask.cover source lines event } :=
        ⟨hr.anchors, hr.opened, hr.roots⟩
      have hnode : Tree.Bare (.scalar event.mark.line [] (Scalar.resolve text style)) := rfl
      refine (hmask.remember anchor hnode).deliver (fun t ht => ?_) hr.opened
      cases ht
      exact hnode
  | «alias» anchor =>
      refine hr.deliver (fun t ht => ?_) hr.opened
      cases ht
      cases h : r.anchors.lookup anchor with
      | none => rfl
      | some node =>
          -- what an alias repeats has been read before
          obtain ⟨before, after, hsplit, -⟩ := List.lookup_eq_some_iff.mp h
          refine hr.anchors (anchor, node) ?_
          rw [hsplit]
          exact List.mem_append_right before List.mem_cons_self
  | sequenceStart anchor =>
      exact ⟨hr.anchors, List.forall_mem_cons.mpr ⟨rfl, hr.opened⟩, hr.roots⟩
  | mappingStart anchor =>
      exact ⟨hr.anchors, List.forall_mem_cons.mpr ⟨rfl, hr.opened⟩, hr.roots⟩
  | _ => exact hr.deliver (by nofun) hr.opened

theorem Bare.step {r : CommentReader} (hr : r.Bare) (source : List Char) (lines : List Line)
    (event : Event) : (r.step source lines event).Bare := by
  unfold CommentReader.step
  split
  · exact hr.finish (by simpa [*] using hr.opened)
  · exact hr.finish (by simpa [*] using hr.opened)
  · exact hr.readNode source lines event
  · split
    · exact hr
    · split
      · exact hr.readNode source lines event
      · unfold readBetween
        split
        · exact ⟨hr.anchors, hr.opened, hr.roots⟩
        · exact ⟨hr.anchors, hr.opened, hr.roots⟩
        · exact hr

theorem bare_run (source : List Char) (lines : List Line) (events : List Event) :
    (run source lines events).Bare := by
  suffices h : ∀ r : CommentReader, r.Bare → (events.foldl (step source lines) r).Bare from
    h empty ⟨nofun, nofun, nofun⟩
  induction events with
  | nil => exact fun r hr => hr
  | cons event events ih => exact fun r hr => ih _ (hr.step source lines event)

/-- **Reading places no comment**: what has just been read holds none. -/
theorem bare_documents (source : List Char) (lines : List Line) (events : List Event) :
    ∀ root ∈ (run source lines events).documents, root.Bare := by
  intro root hroot
  have hbare := bare_run source lines events
  rw [documents, List.mem_reverse, List.mem_append, Option.mem_toList] at hroot
  exact hroot.elim (OpenCollection.bare_closeAll hbare.opened root) (hbare.roots root)

end CommentReader

/-! ### The two readings of a stream -/

/-- The only document of a stream is its content. -/
theorem Node.documents_eq_singleton {events : List Event} (h : (Node.documents events).length = 1) :
    Node.documents events = [Node.ofEvents events] := by
  obtain ⟨root, hroot⟩ := List.length_eq_one_iff.mp h
  rw [Node.ofEvents, hroot, Node.ofDocuments]

namespace CommentTree

theorem erase_documents (source : List Char) (events : List Event) :
    (ofEvents source events).documents.map Tree.erase =
      (Node.documents events).map Tree.erase := by
  rw [ofEvents, erase_placeAll,
    ← CommentReader.content_documents source (Text.splitAll '\n' source) events, List.map_map]
  exact congrArg (List.map · _) (funext fun root => (Tree.erase_content root).symm)

theorem length_documents (source : List Char) (events : List Event) :
    (ofEvents source events).documents.length = (Node.documents events).length := by
  have h := congrArg List.length (erase_documents source events)
  rwa [List.length_map, List.length_map] at h

theorem root?_eq_some {tree : CommentTree} {c : CommentNode} :
    tree.root? = some c ↔ tree.documents = [c] := by
  unfold root?
  split
  next root hroot => rw [hroot, Option.some_inj, List.cons.injEq, and_iff_left rfl]
  next hne => exact ⟨nofun, fun h => (hne c h).elim⟩

/-- A stream with one document has one root to look for comments in, and it has the content of that
document. -/
theorem exists_root {events : List Event} {root : Node} (h : Node.documents events = [root])
    (source : List Char) :
    ∃ c, (ofEvents source events).root? = some c ∧ c.erase = root.erase := by
  have herase := erase_documents source events
  rw [h] at herase
  obtain ⟨c, hc, hcr⟩ := List.map_eq_singleton_iff.mp herase
  exact ⟨c, root?_eq_some.mpr hc, hcr⟩

/-- **No comment is lost**: the documents of a text hold the comments of the text, each of them
once, if there are any documents. -/
theorem comments_documents {source : List Char} {events : List Event}
    (h : (ofEvents source events).documents ≠ []) :
    ((ofEvents source events).documents.flatMap Tree.comments).Perm (scanned source events) := by
  let read := (CommentReader.run source (Text.splitAll '\n' source) events).documents
  -- placing keeps the number of documents, so that there were some before it
  have hread : read ≠ [] := by
    intro hnil
    have herase : (ofEvents source events).documents.map Tree.erase = read.map Tree.erase :=
      erase_placeAll (scanned source events) read
    rw [hnil, List.map_nil, List.map_eq_nil_iff] at herase
    exact h herase
  have hbare : read.flatMap Tree.comments = [] := by
    rw [List.flatMap_eq_nil_iff]
    exact fun root hroot =>
      (CommentReader.bare_documents source _ events root hroot).comments_eq_nil
  have hperm := comments_placeAll (scanned source events) hread
  rwa [hbare, List.append_nil] at hperm

/-- The root of a single document holds all comments of the text. -/
theorem comments_root {source : List Char} {events : List Event} {c : CommentNode}
    (h : (ofEvents source events).root? = some c) :
    c.comments.Perm (scanned source events) := by
  have hdocuments := root?_eq_some.mp h
  have hperm := comments_documents (hdocuments ▸ List.cons_ne_nil c [])
  rwa [hdocuments, List.flatMap_singleton] at hperm

end CommentTree

/-- **The two readings of a stream agree.**  Whatever the events are, the documents read for their
comments, with all comments placed, have the content of the documents that are loaded: as many of
them, and node by node the same kinds, lines, values, items and entries. There is a root to look for
comments in exactly if what is loaded is the root of the only document. -/
theorem documents_agree (source : List Char) (events : List Event) :
    (CommentTree.ofEvents source events).documents.map Tree.erase =
        (Node.documents events).map Tree.erase ∧
      ((CommentTree.ofEvents source events).root?.isSome = true ↔
        ∃ root, Node.documents events = [root] ∧ Node.ofEvents events = root) := by
  refine ⟨CommentTree.erase_documents source events, fun h => ?_, ?_⟩
  · obtain ⟨c, hc⟩ := Option.isSome_iff_exists.mp h
    have hlength := CommentTree.length_documents source events
    rw [CommentTree.root?_eq_some.mp hc, List.length_singleton] at hlength
    obtain ⟨root, hroot⟩ := List.length_eq_one_iff.mp hlength.symm
    exact ⟨root, hroot, by rw [Node.ofEvents, hroot]; rfl⟩
  · rintro ⟨root, hroot, -⟩
    obtain ⟨c, hc, -⟩ := CommentTree.exists_root hroot source
    rw [hc]
    rfl

end PlaybookLint
