import Mathlib.Logic.ExistsUnique
import PlaybookLint.Proofs.CarryOver
import PlaybookLint.Proofs.Content
import PlaybookLint.Proofs.Reading
import PlaybookLint.Proofs.Scanning

/-!
# The home of a line in a stream

The home of a line depends on nothing but content, so that a comment is placed as if it were the
only one. Every node ends up with those of the comments whose home it is, in order. Since a line has
one home, no comment is lost, and none is placed twice.

## Main definitions

* `homeInDocuments` - the document that a line belongs to, and the home of the line there.
* `nodeAt?` - the node at a place of a stream.

## Main statements

* `Tree.home_eq_of_erase` - trees with the same content have the same homes.
* `note_nodeAt?_placeAll` - the comments at a place are those whose home it is.
* `mem_comments_nodeAt?_iff` - the comments in a part of a document are those whose home lies there.
* `CommentTree.existsUnique_place` - a comment of a text has one place.
* `CommentTree.placement_conserves` - placing all comments of a text loses none and duplicates none.
-/

namespace PlaybookLint

namespace Tree

/-! ### Content decides -/

theorem boundBefore_map (f : α → β) (bound : Option Nat) (later : List (Tree α)) :
    boundBefore bound (later.map (map f)) = boundBefore bound later := by
  cases later with
  | nil => rfl
  | cons next later => rw [List.map_cons, boundBefore, boundBefore, line_map]

theorem owns_map (f : α → β) (child : Tree α) (bound : Option Nat) (line : Nat) :
    owns (child.map f) bound line = owns child bound line := by
  rw [owns, owns, isCollection_map, line_map]

mutual

/-- The home of a line does not depend on notes. -/
theorem home_map (f : α → β) (bound : Option Nat) (line : Nat) : (t : Tree α) →
    (t.map f).home bound line = t.home bound line
  | .scalar .. => rfl
  | .sequence _ _ items => by rw [map_sequence, home, home, homeInItems_map f bound line items]
  | .mapping _ _ entries => by rw [map_mapping, home, home, homeInEntries_map f bound line entries]

theorem homeInItems_map (f : α → β) (bound : Option Nat) (line : Nat) : (items : List (Tree α)) →
    homeInItems bound line (items.map (map f)) = homeInItems bound line items
  | [] => rfl
  | item :: items => by
      rw [List.map_cons, homeInItems, homeInItems, boundBefore_map, owns_map,
        home_map f _ line item, homeInItems_map f bound line items]

theorem homeInEntries_map (f : α → β) (bound : Option Nat) (line : Nat) :
    (entries : List (Tree α × Tree α)) →
    homeInEntries bound line (entries.map (Prod.map (map f) (map f))) =
      homeInEntries bound line entries
  | [] => rfl
  | (key, value) :: entries => by
      have hkeys : (entries.map (Prod.map (map f) (map f))).map Prod.fst =
          (entries.map Prod.fst).map (map f) := by
        rw [List.map_map, List.map_map]
        rfl
      rw [List.map_cons, Prod.map, homeInEntries, homeInEntries, hkeys, boundBefore_map, owns_map,
        home_map f _ line value, homeInEntries_map f bound line entries]

end

/-- Trees with the same content have the same homes. -/
theorem home_eq_of_erase {t : Tree α} {u : Tree β} (h : t.erase = u.erase) (bound : Option Nat)
    (line : Nat) : t.home bound line = u.home bound line := by
  rw [← home_map (fun _ => ()) bound line t, ← home_map (fun _ => ()) bound line u]
  exact congrArg (home bound line) h

/-! ### The comments at the nodes -/

mutual

/-- The comments in a tree are those at its nodes. -/
theorem mem_comments_iff {c : Comment} : (t : CommentNode) →
    c ∈ t.comments ↔ ∃ path node, t.at? path = some node ∧ c ∈ node.note
  | .scalar line own value => by
      constructor
      · exact fun hc => ⟨[], _, at?_nil _, hc⟩
      · rintro ⟨path, node, hnode, hc⟩
        cases path with
        | nil =>
            cases hnode
            exact hc
        | cons step path => exact nomatch hnode
  | .sequence line own items => by
      rw [comments, List.mem_append, mem_commentsOfItems_iff items]
      constructor
      · rintro (hc | ⟨i, path, node, hnode, hc⟩)
        · exact ⟨[], _, at?_nil _, hc⟩
        · exact ⟨.item i :: path, node, hnode, hc⟩
      · rintro ⟨path, node, hnode, hc⟩
        match path with
        | [] =>
            cases hnode
            exact .inl hc
        | .item i :: path => exact .inr ⟨i, path, node, hnode, hc⟩
  | .mapping line own entries => by
      rw [comments, List.mem_append, mem_commentsOfEntries_iff entries]
      constructor
      · rintro (hc | ⟨i, path, node, hnode, hc⟩)
        · exact ⟨[], _, at?_nil _, hc⟩
        · exact ⟨.entry i :: path, node, hnode, hc⟩
      · rintro ⟨path, node, hnode, hc⟩
        match path with
        | [] =>
            cases hnode
            exact .inl hc
        | .entry i :: path => exact .inr ⟨i, path, node, hnode, hc⟩

theorem mem_commentsOfItems_iff {c : Comment} : (items : List CommentNode) →
    c ∈ commentsOfItems items ↔ ∃ (i : Nat) (path : TreePath) (node : CommentNode),
      (items[i]?.bind fun item => item.at? path) = some node ∧ c ∈ node.note
  | [] => by simp [commentsOfItems]
  | item :: items => by
      rw [commentsOfItems, List.mem_append, mem_comments_iff item, mem_commentsOfItems_iff items]
      constructor
      · rintro (⟨path, node, hnode, hc⟩ | ⟨i, path, node, hnode, hc⟩)
        · exact ⟨0, path, node, hnode, hc⟩
        · exact ⟨i + 1, path, node, hnode, hc⟩
      · rintro ⟨i, path, node, hnode, hc⟩
        cases i with
        | zero => exact .inl ⟨path, node, hnode, hc⟩
        | succ i => exact .inr ⟨i, path, node, hnode, hc⟩

theorem mem_commentsOfEntries_iff {c : Comment} : (entries : List (CommentNode × CommentNode)) →
    c ∈ commentsOfEntries entries ↔ ∃ (i : Nat) (path : TreePath) (node : CommentNode),
      ((entries[i]?.map Prod.snd).bind fun value => value.at? path) = some node ∧ c ∈ node.note
  | [] => by simp [commentsOfEntries]
  | (key, value) :: entries => by
      rw [commentsOfEntries, List.mem_append, mem_comments_iff value,
        mem_commentsOfEntries_iff entries]
      constructor
      · rintro (⟨path, node, hnode, hc⟩ | ⟨i, path, node, hnode, hc⟩)
        · exact ⟨0, path, node, hnode, hc⟩
        · exact ⟨i + 1, path, node, hnode, hc⟩
      · rintro ⟨i, path, node, hnode, hc⟩
        cases i with
        | zero => exact .inl ⟨path, node, hnode, hc⟩
        | succ i => exact .inr ⟨i, path, node, hnode, hc⟩

end

/-- The comments of a part are comments of the whole. -/
theorem comments_subset_of_at? {root node : CommentNode} {path : TreePath}
    (h : root.at? path = some node) : ∀ c ∈ node.comments, c ∈ root.comments := by
  intro c hc
  obtain ⟨rest, part, hpart, hown⟩ := (mem_comments_iff node).mp hc
  refine (mem_comments_iff root).mpr ⟨path ++ rest, part, ?_, hown⟩
  rw [at?_append, h, Option.bind_some, hpart]

end Tree

/-! ### The home of a line in a stream -/

/-- The number of the document that a line belongs to, and the path there. -/
def homeInDocuments (line : Nat) (roots : List CommentNode) : Nat × TreePath :=
  let i := rootIndex line roots
  let bound := roots[i + 1]?.map fun next => next.line - 1
  (i, (roots[i]?.map (Tree.home bound line)).getD [])

/-- The node at a place of a stream. -/
def nodeAt? (roots : List (Tree α)) (place : Nat × TreePath) : Option (Tree α) :=
  roots[place.1]?.bind fun root => root.at? place.2

theorem placeInDocuments_eq_modify (roots : List CommentNode) (c : Comment) :
    placeInDocuments roots c =
      roots.modify (homeInDocuments c.line roots).1
        (Tree.updateAt (Tree.addComment c) (homeInDocuments c.line roots).2) := by
  unfold placeInDocuments homeInDocuments
  refine List.ext_getElem? fun j => ?_
  rw [List.getElem?_modify, List.getElem?_modify]
  by_cases hj : rootIndex c.line roots = j
  · subst hj
    cases hroot : roots[rootIndex c.line roots]? with
    | none => rfl
    | some root => simp [hroot, Tree.place_eq_updateAt]
  · simp [hj]

theorem rootIndex_eq_of_erase {roots others : List CommentNode}
    (h : roots.map Tree.erase = others.map Tree.erase) (line : Nat) :
    rootIndex line roots = rootIndex line others := by
  have hindex : ∀ l : List CommentNode, rootIndex line l =
      (l.map Tree.erase).length - 1 -
        (l.map Tree.erase).reverse.findIdx fun root => decide (root.line ≤ line) := by
    intro l
    rw [rootIndex, ← List.map_reverse, List.findIdx_map, List.length_map]
    simp only [Function.comp_def, Tree.erase, Tree.line_map]
  rw [hindex, hindex, h]

/-- Streams with the same content have the same homes. -/
theorem homeInDocuments_eq_of_erase {roots others : List CommentNode}
    (h : roots.map Tree.erase = others.map Tree.erase) (line : Nat) :
    homeInDocuments line roots = homeInDocuments line others := by
  have hget : ∀ j : Nat, roots[j]?.map Tree.erase = others[j]?.map Tree.erase := by
    intro j
    rw [← List.getElem?_map, ← List.getElem?_map, h]
  have hline : ∀ j : Nat, (roots[j]?.map fun next => next.line - 1) =
      others[j]?.map fun next => next.line - 1 := by
    intro j
    have hj := congrArg (Option.map fun root : Tree Unit => root.line - 1) (hget j)
    simpa only [Option.map_map, Function.comp_def, Tree.erase, Tree.line_map] using hj
  have hhome : ∀ (j : Nat) (bound : Option Nat), roots[j]?.map (Tree.home bound line) =
      others[j]?.map (Tree.home bound line) := by
    intro j bound
    have hj := congrArg (Option.map (Tree.home bound line)) (hget j)
    simpa only [Option.map_map, Function.comp_def, Tree.erase, Tree.home_map] using hj
  unfold homeInDocuments
  dsimp only
  rw [rootIndex_eq_of_erase h, hline, hhome]

/-- The home of a line is in the stream, if that has a document. -/
theorem exists_nodeAt?_home {roots : List CommentNode} (h : roots ≠ []) (line : Nat) :
    ∃ node, nodeAt? roots (homeInDocuments line roots) = some node := by
  unfold nodeAt? homeInDocuments
  dsimp only
  rw [List.getElem?_eq_getElem (rootIndex_lt h line)]
  exact Tree.exists_at?_home _ line _

/-- In a stream with one document, a line belongs to its root. -/
theorem homeInDocuments_singleton (line : Nat) (root : CommentNode) :
    homeInDocuments line [root] = (0, root.home none line) := by
  have hindex : rootIndex line [root] = 0 := by simp [rootIndex]
  rw [homeInDocuments, hindex]
  rfl

/-! ### The comments at a place -/

/-- **One comment more.**  Placing a comment adds it to the comments at its home, and leaves all
others as they are. -/
theorem note_placeInDocuments (roots : List CommentNode) (c : Comment) (place : Nat × TreePath) :
    (nodeAt? (placeInDocuments roots c) place).map Tree.note =
      (nodeAt? roots place).map fun node =>
        if homeInDocuments c.line roots = place then node.note ++ [c] else node.note := by
  obtain ⟨j, p⟩ := place
  rw [placeInDocuments_eq_modify, nodeAt?, nodeAt?, List.getElem?_modify]
  cases roots[j]? with
  | none => rfl
  | some root =>
      by_cases hj : (homeInDocuments c.line roots).1 = j
      · have hplace : homeInDocuments c.line roots = (j, p) ↔
            (homeInDocuments c.line roots).2 = p := by
          rw [Prod.ext_iff, and_iff_right hj]
        have hnote := Tree.note_at?_updateAt (Tree.changesNote_addComment c)
          (homeInDocuments c.line roots).2 root p
        simpa [hj, hplace, Tree.addComment] using hnote
      · have hplace : homeInDocuments c.line roots ≠ (j, p) := fun h => hj (congrArg Prod.fst h)
        simp [hj, hplace]

theorem keys_placeInDocuments (roots : List CommentNode) (c : Comment) (place : Nat × TreePath) :
    (nodeAt? (placeInDocuments roots c) place).map Tree.keys =
      (nodeAt? roots place).map Tree.keys := by
  rw [placeInDocuments_eq_modify, nodeAt?, nodeAt?, List.getElem?_modify]
  cases roots[place.1]? with
  | none => rfl
  | some root =>
      have hkeys := Tree.keys_at?_updateAt (Tree.changesNote_addComment c)
        (homeInDocuments c.line roots).2 root place.2
      by_cases hj : (homeInDocuments c.line roots).1 = place.1
      · simpa [hj] using hkeys
      · simp [hj]

/-- **All comments.**  The comments at a place are its earlier ones and, in order, those whose home
it is. -/
theorem note_placeAll (cs : List Comment) (roots : List CommentNode) (place : Nat × TreePath) :
    (nodeAt? (cs.foldl placeInDocuments roots) place).map Tree.note =
      (nodeAt? roots place).map fun node =>
        node.note ++ cs.filter fun c => homeInDocuments c.line roots = place := by
  induction cs generalizing roots with
  | nil => simp
  | cons c cs ih =>
      -- the other comments have the homes that they had before
      have hhome : ∀ line, homeInDocuments line (placeInDocuments roots c) =
          homeInDocuments line roots :=
        homeInDocuments_eq_of_erase (erase_placeInDocuments roots c)
      let later := cs.filter fun d => homeInDocuments d.line roots = place
      rw [List.foldl_cons, ih]
      simp only [hhome]
      calc (nodeAt? (placeInDocuments roots c) place).map (fun node => node.note ++ later)
          = ((nodeAt? (placeInDocuments roots c) place).map Tree.note).map (· ++ later) := by
            rw [Option.map_map]
            rfl
        _ = (nodeAt? roots place).map fun node =>
              (if homeInDocuments c.line roots = place then node.note ++ [c] else node.note) ++
                later := by
            rw [note_placeInDocuments, Option.map_map]
            rfl
        _ = _ := by
            congr 1
            funext node
            rw [List.filter_cons]
            split <;> simp [later, *]

theorem keys_placeAll (cs : List Comment) (roots : List CommentNode) (place : Nat × TreePath) :
    (nodeAt? (cs.foldl placeInDocuments roots) place).map Tree.keys =
      (nodeAt? roots place).map Tree.keys := by
  induction cs generalizing roots with
  | nil => rfl
  | cons c cs ih => rw [List.foldl_cons, ih, keys_placeInDocuments]

section Placed

variable {roots : List CommentNode} (hbare : ∀ root ∈ roots, root.Bare) {cs : List Comment}
include hbare

/-- Documents without comments are bare at every place. -/
theorem bare_of_nodeAt? {place : Nat × TreePath} {node : CommentNode}
    (hnode : nodeAt? roots place = some node) : node.Bare := by
  obtain ⟨root, hroot, hat⟩ := Option.bind_eq_some_iff.mp hnode
  exact Tree.map_eq_self_of_at? (hbare root (List.mem_of_getElem? hroot)) hat

/-- **What a node holds**: with some comments placed in documents that had none, the comments at a
place are those whose home it is, and no comment stands in a key. -/
theorem note_nodeAt?_placeAll {place : Nat × TreePath} {node : CommentNode}
    (hnode : nodeAt? (cs.foldl placeInDocuments roots) place = some node) :
    (node.note = cs.filter fun c =>
        homeInDocuments c.line (cs.foldl placeInDocuments roots) = place) ∧
      ∀ key ∈ node.keys, key.Bare := by
  have hhome : ∀ line, homeInDocuments line (cs.foldl placeInDocuments roots) =
      homeInDocuments line roots :=
    homeInDocuments_eq_of_erase (erase_placeAll cs roots)
  have hnote := note_placeAll cs roots place
  have hkeys := keys_placeAll cs roots place
  rw [hnode, Option.map_some] at hnote hkeys
  obtain ⟨before, hbefore, hsum⟩ := Option.map_eq_some_iff.mp hnote.symm
  rw [hbefore, Option.map_some, Option.some.injEq] at hkeys
  have hnone : before.Bare := bare_of_nodeAt? hbare hbefore
  have hempty : [] = before.note := Tree.note_eq_of_map_eq_self hnone
  constructor
  · simp only [hhome]
    rw [← hsum, ← hempty, List.nil_append]
  · intro key hkey
    rw [hkeys] at hkey
    obtain ⟨e, he, rfl⟩ := List.mem_map.mp hkey
    exact Tree.map_eq_self_of_mem_entries hnone he

/-- **Which part holds a comment**: the comments in a part of a document are those whose home lies
there. -/
theorem mem_comments_nodeAt?_iff {i : Nat} {path : TreePath} {node : CommentNode}
    (hnode : nodeAt? (cs.foldl placeInDocuments roots) (i, path) = some node) {c : Comment}
    (hc : c ∈ cs) :
    c ∈ node.comments ↔
      (homeInDocuments c.line (cs.foldl placeInDocuments roots)).1 = i ∧
        path <+: (homeInDocuments c.line (cs.foldl placeInDocuments roots)).2 := by
  have hplace : ∀ p, nodeAt? (cs.foldl placeInDocuments roots) (i, path ++ p) = node.at? p := by
    intro p
    obtain ⟨root, hroot, hat⟩ := Option.bind_eq_some_iff.mp hnode
    dsimp only at hroot hat
    rw [nodeAt?, hroot, Option.bind_some, Tree.at?_append, hat, Option.bind_some]
  rw [Tree.mem_comments_iff]
  constructor
  · rintro ⟨p, part, hpart, hmem⟩
    rw [(note_nodeAt?_placeAll hbare ((hplace p).trans hpart)).1, List.mem_filter,
      decide_eq_true_eq] at hmem
    rw [hmem.2]
    exact ⟨rfl, p, rfl⟩
  · rintro ⟨hi, p, hp⟩
    have hhome : homeInDocuments c.line (cs.foldl placeInDocuments roots) = (i, path ++ p) :=
      Prod.ext hi hp.symm
    have hne : cs.foldl placeInDocuments roots ≠ [] := by
      intro hnil
      rw [hnil] at hnode
      exact nomatch hnode
    obtain ⟨part, hpart⟩ := exists_nodeAt?_home hne c.line
    rw [hhome, hplace] at hpart
    refine ⟨p, part, hpart, ?_⟩
    rw [(note_nodeAt?_placeAll hbare ((hplace p).trans hpart)).1, List.mem_filter,
      decide_eq_true_eq]
    exact ⟨hc, hhome⟩

end Placed

/-! ### The comments of a text are in order -/

theorem pairwise_scanned (source : List Char) (events : List Yaml.Event) :
    (CommentTree.scanned source events).Pairwise fun c d => c.line < d.line :=
  pairwise_scanLines ..

/-! ### Conservation -/

namespace CommentTree

variable {source : List Char} {events : List Yaml.Event}

/-- With all comments of a text placed, the comments at a place are those whose home it is, and no
comment stands in a key. -/
theorem note_nodeAt?_documents {place : Nat × TreePath} {node : CommentNode}
    (hnode : nodeAt? (ofEvents source events).documents place = some node) :
    (node.note = (scanned source events).filter fun c =>
        homeInDocuments c.line (ofEvents source events).documents = place) ∧
      ∀ key ∈ node.keys, key.Bare :=
  note_nodeAt?_placeAll (CommentReader.bare_documents source _ events) hnode

/-- **A comment has one place**: the home of its line. -/
theorem existsUnique_place (h : (ofEvents source events).documents ≠ []) {c : Comment}
    (hc : c ∈ scanned source events) :
    ∃! place, ∃ node, nodeAt? (ofEvents source events).documents place = some node ∧
      c ∈ node.note := by
  obtain ⟨node, hnode⟩ := exists_nodeAt?_home h c.line
  refine ⟨_, ⟨node, hnode, ?_⟩, ?_⟩
  · rw [(note_nodeAt?_documents hnode).1, List.mem_filter, decide_eq_true_eq]
    exact ⟨hc, rfl⟩
  · rintro place ⟨other, hother, hmem⟩
    rw [(note_nodeAt?_documents hother).1, List.mem_filter, decide_eq_true_eq] at hmem
    exact hmem.2.symm

/-- The comments in a part of the only document are those whose home lies there. -/
theorem mem_comments_at?_iff {root node : CommentNode} {path : TreePath} {c : Comment}
    (hroot : (ofEvents source events).root? = some root) (hnode : root.at? path = some node)
    (hc : c ∈ scanned source events) : c ∈ node.comments ↔ path <+: root.home none c.line := by
  have hdocuments : (ofEvents source events).documents = [root] := root?_eq_some.mp hroot
  have hplace : nodeAt? (ofEvents source events).documents (0, path) = some node := by
    rw [hdocuments]
    exact hnode
  have hiff := mem_comments_nodeAt?_iff (CommentReader.bare_documents source _ events) hplace hc
  change _ ↔ (homeInDocuments c.line (ofEvents source events).documents).1 = 0 ∧
    path <+: (homeInDocuments c.line (ofEvents source events).documents).2 at hiff
  rw [hiff, hdocuments, homeInDocuments_singleton, and_iff_right rfl]

/-- **What is silenced anywhere**: carrying from line to line adds no identifier to those that the
markers name. -/
theorem exists_mem_lineSkips_iff (tree : CommentTree) (name : String) :
    (∃ line skips, tree.lineSkips.get? line = some skips ∧ name ∈ skips.rules) ↔
      ∃ c ∈ tree.comments, c.isMarker = true ∧ name ∈ c.skips := by
  have heffect : ∀ c : Comment, (LineSkips.ofMarker c.skips).Has (.name name) ↔ name ∈ c.skips :=
    fun c => NameSet.mem_ofList
  constructor
  · rintro ⟨line, hentry⟩
    obtain ⟨k, -, hmarked⟩ := (tree.has_lineSkips line (.name name)).mp hentry
    obtain ⟨c, hc, hmarker, -, hname⟩ := (tree.has_marked k (.name name)).mp hmarked
    exact ⟨c, hc, hmarker, (heffect c).mp hname⟩
  · rintro ⟨c, hc, hmarker, hname⟩
    have hmarked := (tree.has_marked c.line (.name name)).mpr
      ⟨c, hc, hmarker, rfl, (heffect c).mpr hname⟩
    exact ⟨c.line, (tree.has_lineSkips c.line (.name name)).mpr ⟨c.line, .refl c.line, hmarked⟩⟩

/-- **Placing conserves comments.**  Take any stream with a document in it. Its documents hold
exactly the comments that are found in the text, each once: a comment stands at exactly one place.
The comments at a place are in the order of their lines, and none stands in a key. So if all
documents are collections, the identifiers that are silenced on some line are those that are
silenced in some document. -/
theorem placement_conserves (h : (ofEvents source events).documents ≠ []) :
    let tree := ofEvents source events
    (tree.documents.flatMap Tree.comments).Perm (scanned source events) ∧
      (scanned source events).Pairwise (fun c d => c.line < d.line) ∧
      (∀ c ∈ scanned source events,
        ∃! place, ∃ node, nodeAt? tree.documents place = some node ∧ c ∈ node.note) ∧
      (∀ place node, nodeAt? tree.documents place = some node →
        node.note.Pairwise (fun c d => c.line < d.line) ∧ ∀ key ∈ node.keys, key.Bare) ∧
      ((∀ root ∈ tree.documents, root.isCollection = true) → ∀ name,
        (∃ line skips, tree.lineSkips.get? line = some skips ∧ name ∈ skips.rules) ↔
          ∃ root ∈ tree.documents, name ∈ root.subtreeSkips) := by
  intro tree
  refine ⟨comments_documents h, pairwise_scanned source events, fun c => existsUnique_place h,
    fun place node hnode => ?_, fun hcollections name => ?_⟩
  · obtain ⟨hnote, hkeys⟩ := note_nodeAt?_documents hnode
    refine ⟨?_, hkeys⟩
    rw [hnote]
    exact (pairwise_scanned source events).filter _
  · have hall : tree.collections = tree.documents := List.filter_eq_self.mpr hcollections
    rw [exists_mem_lineSkips_iff]
    simp only [CommentTree.comments, hall, List.mem_flatMap, Tree.subtreeSkips,
      mem_skipsOfComments]
    constructor
    · rintro ⟨c, ⟨root, hroot, hc⟩, hmarker⟩
      exact ⟨root, hroot, c, hc, hmarker⟩
    · rintro ⟨root, hroot, c, hc, hmarker⟩
      exact ⟨c, ⟨root, hroot, hc⟩, hmarker⟩

/-- The theorem applies to two documents, one with an alias in it and one in flow style: the four
comments on their lines, above the first one and below the last one are all placed. -/
theorem placement_conserves_pair :
    let text := "# top\n- &a [x]  # one\n- *a\n---\n{k: [v]}  # two\n# end\n"
    let events := (Yaml.Event.read text).toOption.getD []
    let tree := ofEvents text.toList events
    let found := scanned text.toList events
    found.map Comment.line = [1, 2, 5, 6] ∧ tree.documents.length = 2 ∧
      (tree.documents.flatMap Tree.comments).Perm found ∧
      ∀ c ∈ found, ∃! place, ∃ node, nodeAt? tree.documents place = some node ∧ c ∈ node.note := by
  intro text events tree found
  have hlength : tree.documents.length = 2 := by decide +kernel
  have hne : tree.documents ≠ [] := List.ne_nil_of_length_eq_add_one hlength
  obtain ⟨hperm, -, hplace, -, -⟩ := placement_conserves hne
  exact ⟨by decide +kernel, hlength, hperm, hplace⟩

end CommentTree

end PlaybookLint
