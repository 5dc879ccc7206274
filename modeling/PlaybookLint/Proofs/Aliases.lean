import PlaybookLint.Lint
import PlaybookLint.Proofs.Home
import PlaybookLint.Proofs.Serialization
import PlaybookLint.Rule.Tasks

/-!
# Comments before an alias

An alias is read as a copy of what its anchor stands for, lines included, so that the lines of the
items of a sequence need not increase. A comment is placed by these lines. An item that is written
as a collection has all comments down to the line of the next item, as that has been read: if the
next item is an alias, this is where the anchored node starts, and the comments from there on are
not placed in the item although they are written in it.

## Main definitions

* `Anchors.StartBy` - all anchored nodes start at or above a line.

## Main statements

* `Written.getElem?_resolveItems` - an item is resolved by anchors that start at or above it.
* `Tree.homeInItems_eq_some_iff` - which lines belong to an item.
* `mem_comments_item_iff` - which comments are placed in an item.
-/

namespace PlaybookLint

open Yaml (Event Mark)

/-! ### Where anchored nodes start -/

/-- All anchored nodes start at or above a line. -/
def Anchors.StartBy (line : Nat) (anchors : Anchors) : Prop :=
  ∀ e ∈ anchors, e.2.line ≤ line

theorem Anchors.StartBy.remember {line anchor : Nat} {node : Node} {anchors : Anchors}
    (h : anchors.StartBy line) (hnode : node.line ≤ line) :
    (anchors.remember anchor node).StartBy line := by
  unfold Anchors.remember
  split
  · exact List.forall_mem_cons.mpr ⟨hnode, h⟩
  · exact h

namespace Written

theorem line_resolve {w : Written} (h : w.isAlias = false) (anchors : Anchors) :
    (w.resolve anchors).1.line = w.line := by
  cases w with
  | «alias» => exact nomatch h
  | scalar | sequence | mapping => rfl

theorem isCollection_resolve {w : Written} (h : w.isCollection = true) (anchors : Anchors) :
    (w.resolve anchors).1.isCollection = true := by
  cases w with
  | scalar | «alias» => exact nomatch h
  | sequence | mapping => rfl

/-- A copy starts at or above the alias. -/
theorem line_resolve_le {w : Written} {anchors : Anchors} (h : anchors.StartBy w.line) :
    (w.resolve anchors).1.line ≤ w.line := by
  cases w with
  | «alias» mark anchor =>
      rw [resolve]
      cases hlookup : anchors.lookup anchor with
      | none => exact Nat.le_refl _
      | some node =>
          obtain ⟨before, after, hsplit, -⟩ := List.lookup_eq_some_iff.mp hlookup
          exact h (anchor, node) (hsplit ▸ List.mem_append_right before List.mem_cons_self)
  | scalar | sequence | mapping => exact Nat.le_refl _

/-- A node starts with its first event. -/
theorem exists_events_eq_cons (w : Written) :
    ∃ event later, w.events = event :: later ∧ event.mark.line = w.line := by
  cases w <;> exact ⟨_, _, rfl, rfl⟩

mutual

/-- If the events of a node are at or above a line, the nodes that are anchored in it start at or
above that line. -/
theorem startBy_resolve {line : Nat} : (w : Written) → (∀ e ∈ w.events, e.mark.line ≤ line) →
    ∀ {anchors : Anchors}, anchors.StartBy line → (w.resolve anchors).2.StartBy line
  | .scalar mark text style anchor => fun hevents _ h =>
      h.remember (hevents _ List.mem_cons_self)
  | .alias mark anchor => fun _ _ h => h
  | .sequence start stop anchor items => by
      intro hevents anchors h
      have hitems := startBy_resolveItems items
        (fun e he => hevents e (List.mem_cons_of_mem _ (List.mem_append_left _ he))) h
      exact hitems.remember (hevents _ List.mem_cons_self)
  | .mapping start stop anchor entries => by
      intro hevents anchors h
      have hentries := startBy_resolveEntries entries
        (fun e he => hevents e (List.mem_cons_of_mem _ (List.mem_append_left _ he))) h
      exact hentries.remember (hevents _ List.mem_cons_self)

theorem startBy_resolveItems {line : Nat} : (items : List Written) →
    (∀ e ∈ eventsOfItems items, e.mark.line ≤ line) →
    ∀ {anchors : Anchors}, anchors.StartBy line → (resolveItems anchors items).2.StartBy line
  | [] => fun _ _ h => h
  | item :: items => by
      intro hevents anchors h
      obtain ⟨hitem, hitems⟩ := List.forall_mem_append.mp hevents
      exact startBy_resolveItems items hitems (startBy_resolve item hitem h)

theorem startBy_resolveEntries {line : Nat} : (entries : List (Written × Written)) →
    (∀ e ∈ eventsOfEntries entries, e.mark.line ≤ line) →
    ∀ {anchors : Anchors}, anchors.StartBy line → (resolveEntries anchors entries).2.StartBy line
  | [] => fun _ _ h => h
  | (key, value) :: entries => by
      intro hevents anchors h
      obtain ⟨hentry, hentries⟩ := List.forall_mem_append.mp hevents
      obtain ⟨hkey, hvalue⟩ := List.forall_mem_append.mp hentry
      exact startBy_resolveEntries entries hentries
        (startBy_resolve value hvalue (startBy_resolve key hkey h))

end

/-- Events come in the order of their lines. -/
def InOrder (events : List Event) : Prop :=
  events.Pairwise fun e f => e.mark.line ≤ f.mark.line

/-- **Items are resolved by what stands above them**: the anchors that are known when an item is
met start at or above it. -/
theorem getElem?_resolveItems {items : List Written} (horder : InOrder (eventsOfItems items))
    {anchors : Anchors} (h : ∀ e ∈ eventsOfItems items, anchors.StartBy e.mark.line) {i : Nat}
    {w : Written} (hw : items[i]? = some w) :
    ∃ known : Anchors, known.StartBy w.line ∧
      (resolveItems anchors items).1[i]? = some (w.resolve known).1 := by
  induction items generalizing anchors i with
  | nil => exact nomatch hw
  | cons item items ih =>
      obtain ⟨hitem, hitems⟩ := List.forall_mem_append.mp h
      cases i with
      | zero =>
          cases hw
          obtain ⟨event, later, hevents, hline⟩ := exists_events_eq_cons w
          exact ⟨anchors, hline ▸ hitem event (hevents ▸ List.mem_cons_self), rfl⟩
      | succ i =>
          obtain ⟨-, horderItems, hbetween⟩ := List.pairwise_append.mp horder
          -- the events of the first item stand above those of the others
          have hlater : ∀ e ∈ eventsOfItems items,
              (item.resolve anchors).2.StartBy e.mark.line := fun e he =>
            startBy_resolve item (fun f hf => hbetween f hf e he) (hitems e he)
          exact ih horderItems hlater hw

theorem length_resolveItems (anchors : Anchors) (items : List Written) :
    (resolveItems anchors items).1.length = items.length := by
  induction items generalizing anchors with
  | nil => rfl
  | cons item items ih => exact congrArg (· + 1) (ih (item.resolve anchors).2)

theorem eventsOfItems_eq_flatMap (items : List Written) :
    eventsOfItems items = items.flatMap events := by
  induction items with
  | nil => rfl
  | cons item items ih => rw [eventsOfItems, ih, List.flatMap_cons]

/-- Items are written one below the other. -/
theorem pairwise_line {items : List Written} (horder : InOrder (eventsOfItems items)) :
    items.Pairwise fun v w => v.line ≤ w.line := by
  rw [eventsOfItems_eq_flatMap, InOrder, List.pairwise_flatMap] at horder
  refine horder.2.imp fun {v w} hbetween => ?_
  obtain ⟨first, later, hfirst, hline⟩ := exists_events_eq_cons v
  obtain ⟨other, others, hother, hotherLine⟩ := exists_events_eq_cons w
  rw [← hline, ← hotherLine]
  exact hbetween first (hfirst ▸ List.mem_cons_self) other (hother ▸ List.mem_cons_self)

/-- **What stands above an item is read as such**, copies included. -/
theorem line_le_of_resolveItems {items : List Written} (horder : InOrder (eventsOfItems items))
    {i j : Nat} (hji : j ≤ i) {w : Written} (hw : items[i]? = some w) {node : Node}
    (hnode : (resolveItems [] items).1[j]? = some node) : node.line ≤ w.line := by
  have hj : j < items.length := by
    rw [← length_resolveItems []]
    exact (List.getElem?_eq_some_iff.mp hnode).1
  have hnone : ∀ e ∈ eventsOfItems items, Anchors.StartBy e.mark.line [] :=
    fun _ _ _ he => nomatch he
  obtain ⟨known, hknown, hresolved⟩ :=
    getElem?_resolveItems horder hnone (List.getElem?_eq_getElem hj)
  rw [hnode, Option.some.injEq] at hresolved
  rw [hresolved]
  refine Nat.le_trans (line_resolve_le hknown) ?_
  obtain ⟨hi, rfl⟩ := List.getElem?_eq_some_iff.mp hw
  obtain rfl | hlt := Nat.eq_or_lt_of_le hji
  · exact Nat.le_refl _
  · exact List.pairwise_iff_getElem.mp (pairwise_line horder) j i hj hi hlt

end Written

/-! ### The lines of an item -/

theorem reaches_boundBefore_iff {nodes : List (Tree α)} {i l : Nat} (hpos : 0 < l) :
    reaches (Tree.boundBefore none (nodes.drop i)) l = true ↔
      ∀ next, nodes[i]? = some next → l < next.line := by
  rw [← List.head?_drop]
  cases nodes.drop i with
  | nil => simp [Tree.boundBefore, reaches]
  | cons next later =>
      simp only [Tree.boundBefore, reaches, Option.all_some, decide_eq_true_eq, List.head?_cons,
        Option.some.injEq, forall_eq']
      omega

/-- **Which lines belong to an item.**  Let an item be a collection that starts, like all items
before it, at or above a line. Then the line belongs to it if it reaches down to the line. -/
theorem Tree.homeInItems_eq_some_iff {bound : Option Nat} {l : Nat} (hpos : 0 < l)
    {nodes : List (Tree α)} {i : Nat} {node : Tree α} (hnode : nodes[i]? = some node)
    (hcollection : node.isCollection = true)
    (hbefore : ∀ j ≤ i, ∀ n, nodes[j]? = some n → n.line ≤ l) :
    (∃ path, homeInItems bound l nodes = some (i, path)) ↔
      reaches (boundBefore bound (nodes.drop (i + 1))) l = true := by
  induction nodes generalizing i with
  | nil => cases hnode
  | cons first nodes ih =>
      cases i with
      | zero =>
          cases hnode
          have hline := hbefore 0 (Nat.le_refl 0) node rfl
          rw [homeInItems]
          simp only [owns, hcollection, hline, decide_true, Bool.true_and, List.drop_succ_cons,
            List.drop_zero]
          split
          next hreaches => simp [hreaches]
          next hreaches => simp [hreaches]
      | succ i =>
          -- the next item starts at or above the line, so that the first one does not own it
          have hnot : owns first (boundBefore bound nodes) l = false := by
            cases nodes with
            | nil => cases hnode
            | cons next later =>
                have hnext := hbefore 1 (Nat.succ_le_succ (Nat.zero_le i)) next rfl
                have hreaches : ¬ l ≤ next.line - 1 := by omega
                simp [owns, boundBefore, reaches, hreaches]
          have hlater := ih hnode fun j hj => hbefore (j + 1) (Nat.succ_le_succ hj)
          rw [homeInItems, hnot, List.drop_succ_cons, ← hlater]
          simp

/-! ### The comments in an item -/

/-- The home of a line is in an item if the line belongs to it. -/
theorem Tree.prefix_home_iff (bound : Option Nat) (l line : Nat) (note : α) (nodes : List (Tree α))
    (i : Nat) : [.item i] <+: (Tree.sequence line note nodes).home bound l ↔
      ∃ path, homeInItems bound l nodes = some (i, path) := by
  rw [home]
  cases homeInItems bound l nodes with
  | none => simp
  | some found =>
      obtain ⟨j, path⟩ := found
      simp [List.cons_prefix_cons, eq_comm]

/-- A comment stands on a line, and lines are counted from one. -/
theorem line_pos_of_mem_scanned {source : List Char} {events : List Event} {c : Comment}
    (hc : c ∈ CommentTree.scanned source events) : 0 < c.line := by
  obtain ⟨i, line, -, -, hcomment⟩ := mem_scanLines_iff.mp hc
  rw [hcomment.line_eq]
  omega

/-- **Which comments an item has.**  Take a stream with one document, the lines of whose events do
not decrease, and whose root is a sequence. Take an item of it that is written as a collection, and
a comment on its line or below it. The comment is placed in the item if the next item, as it has
been read, starts below the comment. The next item starts where it is written, unless it is an
alias: then it may start above that. -/
theorem mem_comments_item_iff (source : List Char) (first last : Mark) {d : WrittenDocument}
    {start stop : Mark} {anchor : Nat} {items : List Written}
    (hroot : d.root = .sequence start stop anchor items) (horder : Written.InOrder d.root.events)
    {i : Nat} {w : Written} (hw : items[i]? = some w) (hcollection : w.isCollection = true)
    {c : Comment} (hc : c ∈ CommentTree.scanned source (WrittenDocument.stream first last [d]))
    (hline : w.line ≤ c.line) :
    let tree := CommentTree.ofEvents source (WrittenDocument.stream first last [d])
    let nodes := (Written.resolveItems [] items).1
    (∃ root item, tree.root? = some root ∧ root.at? [.item i] = some item ∧
      (c ∈ item.comments ↔ ∀ next, nodes[i + 1]? = some next → c.line < next.line)) ∧
      ∀ next after, nodes[i + 1]? = some next → items[i + 1]? = some after →
        next.line ≤ after.line ∧ (after.isAlias = false → next.line = after.line) := by
  intro tree nodes
  have hdocuments : Node.documents (WrittenDocument.stream first last [d]) =
      [.sequence start.line none nodes] := by
    rw [WrittenDocument.documents_stream, WrittenDocument.resolveAll, hroot]
    rfl
  have horderItems : Written.InOrder (Written.eventsOfItems items) := by
    rw [hroot] at horder
    exact (List.pairwise_append.mp (List.pairwise_cons.mp horder).2).1
  have hnone : ∀ e ∈ Written.eventsOfItems items, Anchors.StartBy e.mark.line [] :=
    fun _ _ _ he => absurd he List.not_mem_nil
  constructor
  · obtain ⟨root, htree, hsame⟩ := CommentTree.exists_root hdocuments source
    obtain ⟨known, -, hnode⟩ := Written.getElem?_resolveItems horderItems hnone hw
    -- the comments are placed as the content says
    have hhome : root.home none c.line = (Tree.sequence start.line none nodes).home none c.line :=
      Tree.home_eq_of_erase hsame none c.line
    have hat : (Tree.sequence start.line none nodes).at? [.item i] = some (w.resolve known).1 := by
      rw [Tree.at?_cons, Tree.child?, hnode, Option.bind_some, Tree.at?_nil]
    obtain ⟨item, hitem, -⟩ := Tree.exists_at?_of_erase hsame hat
    refine ⟨root, item, htree, hitem, ?_⟩
    have hbefore : ∀ j ≤ i, ∀ n, nodes[j]? = some n → n.line ≤ c.line := fun j hj n hn =>
      Nat.le_trans (Written.line_le_of_resolveItems horderItems hj hw hn) hline
    have hpos := line_pos_of_mem_scanned hc
    rw [CommentTree.mem_comments_at?_iff htree hitem hc, hhome, Tree.prefix_home_iff,
      Tree.homeInItems_eq_some_iff hpos hnode (Written.isCollection_resolve hcollection known)
        hbefore, reaches_boundBefore_iff hpos]
  · intro next after hnext hafter
    obtain ⟨known, hknown, hresolved⟩ := Written.getElem?_resolveItems horderItems hnone hafter
    have hsame : next = (after.resolve known).1 := Option.some.inj (hnext.symm.trans hresolved)
    rw [hsame]
    exact ⟨Written.line_resolve_le hknown, fun halias => Written.line_resolve halias known⟩

/-- The theorem applies to an item before an alias of the item above it: the comment on the line of
the item is not placed in it. -/
theorem not_mem_comments_item_before_alias :
    let mark (line : Nat) : Mark := ⟨0, line, 0⟩
    let items : List Written :=
      [.sequence (mark 1) (mark 1) 1 [], .sequence (mark 2) (mark 2) 0 [], .alias (mark 3) 1]
    let d : WrittenDocument := ⟨mark 1, .sequence (mark 1) (mark 4) 0 items, mark 4⟩
    let source := "- &a []\n- []  # one\n- *a\n".toList
    let events := WrittenDocument.stream (mark 1) (mark 4) [d]
    let c : Comment := ⟨2, 7, "# one"⟩
    CommentTree.scanned source events = [c] ∧
      ∃ root item, (CommentTree.ofEvents source events).root? = some root ∧
        root.at? [.item 1] = some item ∧ c ∉ item.comments := by
  intro mark items d source events c
  have hscanned : CommentTree.scanned source events = [c] := by decide +kernel
  have hc : c ∈ CommentTree.scanned source events := hscanned ▸ List.mem_cons_self
  have horder : Written.InOrder d.root.events := by
    unfold Written.InOrder
    decide +kernel
  have hroot : d.root = .sequence (mark 1) (mark 4) 0 items := rfl
  have hw : items[1]? = some (.sequence (mark 2) (mark 2) 0 []) := rfl
  obtain ⟨⟨root, item, htree, hat, hiff⟩, -⟩ :=
    mem_comments_item_iff source (mark 1) (mark 4) hroot horder hw rfl hc (Nat.le_refl 2)
  refine ⟨hscanned, root, item, htree, hat, fun hmem => ?_⟩
  have hbelow : 2 < 1 := hiff.mp hmem (.sequence 1 none []) rfl
  exact absurd hbelow (by decide)

/-- A task with a marker in it, before an alias of the task above: the comment is placed in the
copy, and what the marker names is reported for the task that it is written in. -/
theorem reported_before_alias :
    let text := "- &a\n  ansible.builtin.ping:\n- name: check\n  ping:  # noqa: fqcn\n- *a\n"
    let events := (Yaml.Event.read text).toOption.getD []
    let tree := CommentTree.ofEvents text.toList events
    let doc := Document.ofTrees ⟨"tasks/main.yml"⟩ none (Node.ofEvents events) tree
    (tree.root?.map fun root => root.items.map fun item => item.comments.map Comment.line) =
        some [[], [], [4]] ∧
      (doc.lint [Rule.QualifiedName.rule]).map (fun f => (f.line, f.rule)) = [(3, "fqcn")] := by
  decide +kernel

end PlaybookLint
