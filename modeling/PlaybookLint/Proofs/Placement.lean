import PlaybookLint.Comment.Placement
import PlaybookLint.Proofs.Paths

/-!
# Placing comments

A comment goes to exactly one place of a tree: the home of its line, which the lines of the nodes
decide. Nothing but the comments of that place changes.

## Main definitions

* `Tree.home` - the path to the node that a line of a tree belongs to.

## Main statements

* `Tree.place_eq_updateAt` - placing a comment changes the note at its home.
* `Tree.erase_place` - placing a comment changes no content.
* `Tree.comments_place` - placing a comment adds it, once, to the comments of the tree.
* `erase_placeAll`, `comments_placeAll` - the same for all comments of a stream.
-/

namespace PlaybookLint

/-- If one element of a list is changed so that it yields one more thing, the list yields one more
thing. -/
theorem perm_flatMap_modify {f : α → α} {g : α → List β} {a : α} {b : β}
    (h : (g (f a)).Perm (b :: g a)) {l : List α} {i : Nat} (ha : l[i]? = some a) :
    ((l.modify i f).flatMap g).Perm (b :: l.flatMap g) := by
  induction l generalizing i with
  | nil => exact nomatch ha
  | cons first l ih =>
      cases i with
      | zero =>
          cases ha
          rw [List.modify_zero_cons, List.flatMap_cons, List.flatMap_cons]
          exact h.append_right (l.flatMap g)
      | succ i =>
          rw [List.modify_succ_cons, List.flatMap_cons, List.flatMap_cons]
          exact ((ih ha).append_left (g first)).trans List.perm_middle

/-! ### The home of a line -/

namespace Tree

/-- How far a child reaches that is followed by these nodes, given that the last one reaches to
`bound`. -/
def boundBefore (bound : Option Nat) : List (Tree α) → Option Nat
  | [] => bound
  | next :: _ => some (next.line - 1)

mutual

/-- The path to the node that a line belongs to, given that the tree reaches to `bound`. -/
def home (bound : Option Nat) (line : Nat) : Tree α → TreePath
  | .scalar .. => []
  | .sequence _ _ items =>
    match homeInItems bound line items with
    | some (i, path) => .item i :: path
    | none => []
  | .mapping _ _ entries =>
    match homeInEntries bound line entries with
    | some (i, path) => .entry i :: path
    | none => []

/-- The first item that owns a line, with the path from there; `none` if no item does. -/
def homeInItems (bound : Option Nat) (line : Nat) : List (Tree α) → Option (Nat × TreePath)
  | [] => none
  | item :: items =>
    let itemBound := boundBefore bound items
    if owns item itemBound line then some (0, home itemBound line item)
    else (homeInItems bound line items).map (Prod.map (· + 1) id)

/-- The first value that owns a line, with the path from there; `none` if no value does. -/
def homeInEntries (bound : Option Nat) (line : Nat) :
    List (Tree α × Tree α) → Option (Nat × TreePath)
  | [] => none
  | (_, value) :: entries =>
    let valueBound := boundBefore bound (entries.map Prod.fst)
    if owns value valueBound line then some (0, home valueBound line value)
    else (homeInEntries bound line entries).map (Prod.map (· + 1) id)

end

section Placing

variable {bound : Option Nat} {c : Comment}

theorem placeInItems_cons_eq (item : CommentNode) (items : List CommentNode) :
    placeInItems bound c (item :: items) =
      if owns item (boundBefore bound items) c.line then
        some (item.place (boundBefore bound items) c :: items)
      else (placeInItems bound c items).map (item :: ·) := by
  cases items <;> rfl

theorem placeInEntries_cons_eq (key value : CommentNode)
    (entries : List (CommentNode × CommentNode)) :
    placeInEntries bound c ((key, value) :: entries) =
      if owns value (boundBefore bound (entries.map Prod.fst)) c.line then
        some ((key, value.place (boundBefore bound (entries.map Prod.fst)) c) :: entries)
      else (placeInEntries bound c entries).map ((key, value) :: ·) := by
  cases entries <;> rfl

end Placing

mutual

/-- **Placing a comment changes the note at its home**, and nothing else. -/
theorem place_eq_updateAt (bound : Option Nat) (c : Comment) : (t : CommentNode) →
    t.place bound c = updateAt (addComment c) (t.home bound c.line) t
  | .scalar line own value => rfl
  | .sequence line own items => by
      unfold place home
      rw [placeInItems_eq bound c items]
      cases homeInItems bound c.line items <;> rfl
  | .mapping line own entries => by
      unfold place home
      rw [placeInEntries_eq bound c entries]
      cases homeInEntries bound c.line entries <;> rfl

theorem placeInItems_eq (bound : Option Nat) (c : Comment) : (items : List CommentNode) →
    placeInItems bound c items = (homeInItems bound c.line items).map fun found =>
      items.modify found.1 (updateAt (addComment c) found.2)
  | [] => rfl
  | item :: items => by
      rw [placeInItems_cons_eq, homeInItems]
      split
      · rw [place_eq_updateAt _ c item]
        rfl
      · rw [placeInItems_eq bound c items, Option.map_map, Option.map_map]
        rfl

theorem placeInEntries_eq (bound : Option Nat) (c : Comment) :
    (entries : List (CommentNode × CommentNode)) →
    placeInEntries bound c entries = (homeInEntries bound c.line entries).map fun found =>
      entries.modify found.1 fun (k, v) => (k, updateAt (addComment c) found.2 v)
  | [] => rfl
  | (key, value) :: entries => by
      rw [placeInEntries_cons_eq, homeInEntries]
      split
      · rw [place_eq_updateAt _ c value]
        rfl
      · rw [placeInEntries_eq bound c entries, Option.map_map, Option.map_map]
        rfl

end

mutual

/-- The home of a line is in the tree. -/
theorem exists_at?_home (bound : Option Nat) (line : Nat) : (t : Tree α) →
    ∃ node, t.at? (t.home bound line) = some node
  | .scalar line note value => ⟨.scalar line note value, rfl⟩
  | .sequence _ _ items => by
      unfold home
      cases h : homeInItems bound line items with
      | none => exact ⟨_, at?_nil _⟩
      | some found => exact exists_at?_homeInItems bound line items found h
  | .mapping _ _ entries => by
      unfold home
      cases h : homeInEntries bound line entries with
      | none => exact ⟨_, at?_nil _⟩
      | some found => exact exists_at?_homeInEntries bound line entries found h

theorem exists_at?_homeInItems (bound : Option Nat) (line : Nat) : (items : List (Tree α)) →
    ∀ found, homeInItems bound line items = some found →
      ∃ node, (items[found.1]?.bind fun item => item.at? found.2) = some node
  | [] => fun _ h => nomatch h
  | item :: items => by
      intro found h
      rw [homeInItems] at h
      split at h
      · cases h
        exact exists_at?_home _ line item
      · obtain ⟨later, hlater, rfl⟩ := Option.map_eq_some_iff.mp h
        exact exists_at?_homeInItems bound line items later hlater

theorem exists_at?_homeInEntries (bound : Option Nat) (line : Nat) :
    (entries : List (Tree α × Tree α)) →
    ∀ found, homeInEntries bound line entries = some found →
      ∃ node, ((entries[found.1]?.map Prod.snd).bind fun value => value.at? found.2) = some node
  | [] => fun _ h => nomatch h
  | (key, value) :: entries => by
      intro found h
      rw [homeInEntries] at h
      split at h
      · cases h
        exact exists_at?_home _ line value
      · obtain ⟨later, hlater, rfl⟩ := Option.map_eq_some_iff.mp h
        exact exists_at?_homeInEntries bound line entries later hlater

end

/-! ### The content stays -/

theorem changesNote_addComment (c : Comment) : ChangesNote (addComment c) :=
  fun _ => ⟨_, rfl⟩

/-- **Placing a comment changes no content**: kinds, lines, values, items and entries stay. -/
theorem erase_place (bound : Option Nat) (c : Comment) (t : CommentNode) :
    (t.place bound c).erase = t.erase := by
  rw [place_eq_updateAt]
  exact erase_updateAt (changesNote_addComment c) (t.home bound c.line) t

/-! ### The comments grow by one -/

theorem commentsOfItems_eq_flatMap (items : List CommentNode) :
    commentsOfItems items = items.flatMap comments := by
  induction items with
  | nil => rfl
  | cons item items ih => rw [commentsOfItems, ih, List.flatMap_cons]

theorem commentsOfEntries_eq_flatMap (entries : List (CommentNode × CommentNode)) :
    commentsOfEntries entries = entries.flatMap fun e => e.2.comments := by
  induction entries with
  | nil => rfl
  | cons entry entries ih => rw [commentsOfEntries, ih, List.flatMap_cons]

theorem comments_addComment (c : Comment) (t : CommentNode) :
    (addComment c t).comments.Perm (c :: t.comments) := by
  cases t with
  | scalar line own value =>
      rw [addComment, setNote, note, comments, comments]
      exact List.perm_append_comm
  | sequence line own items =>
      rw [addComment, setNote, note, comments, comments, List.append_assoc]
      exact List.perm_middle
  | mapping line own entries =>
      rw [addComment, setNote, note, comments, comments, List.append_assoc]
      exact List.perm_middle

/-- A comment that is added at a node of a tree is one more comment of the tree. -/
theorem comments_updateAt (c : Comment) {path : TreePath} {t node : CommentNode}
    (hnode : t.at? path = some node) :
    (updateAt (addComment c) path t).comments.Perm (c :: t.comments) := by
  induction path generalizing t with
  | nil =>
      rw [updateAt_nil]
      exact comments_addComment c t
  | cons step path ih =>
      rw [at?_cons] at hnode
      obtain ⟨child, hchild, hbelow⟩ := Option.bind_eq_some_iff.mp hnode
      have hgrown := ih hbelow
      cases t with
      | scalar => cases hchild
      | sequence line own items =>
          cases step with
          | item i =>
              rw [updateAt, comments, comments, commentsOfItems_eq_flatMap,
                commentsOfItems_eq_flatMap]
              refine (List.Perm.append_left own ?_).trans List.perm_middle
              exact perm_flatMap_modify hgrown hchild
          | entry => cases hchild
      | mapping line own entries =>
          cases step with
          | item => cases hchild
          | entry i =>
              obtain ⟨entry, hentry, rfl⟩ := Option.map_eq_some_iff.mp hchild
              rw [updateAt, comments, comments, commentsOfEntries_eq_flatMap,
                commentsOfEntries_eq_flatMap]
              refine (List.Perm.append_left own ?_).trans List.perm_middle
              refine perm_flatMap_modify ?_ hentry
              exact hgrown

/-- **Placing a comment adds it once** to the comments of the tree, and loses none. -/
theorem comments_place (bound : Option Nat) (c : Comment) (t : CommentNode) :
    (t.place bound c).comments.Perm (c :: t.comments) := by
  obtain ⟨node, hnode⟩ := exists_at?_home bound c.line t
  rw [place_eq_updateAt]
  exact comments_updateAt c hnode

end Tree

/-! ### All comments of a stream -/

theorem erase_placeInDocuments (roots : List CommentNode) (c : Comment) :
    (placeInDocuments roots c).map Tree.erase = roots.map Tree.erase := by
  unfold placeInDocuments
  exact map_modify_of_forall (fun root => Tree.erase_place _ c root) roots (rootIndex c.line roots)

/-- **Placing any comments changes no content** of any document. -/
theorem erase_placeAll (cs : List Comment) (roots : List CommentNode) :
    (cs.foldl placeInDocuments roots).map Tree.erase = roots.map Tree.erase := by
  induction cs generalizing roots with
  | nil => rfl
  | cons c cs ih => rw [List.foldl_cons, ih, erase_placeInDocuments]

theorem rootIndex_lt {roots : List CommentNode} (h : roots ≠ []) (line : Nat) :
    rootIndex line roots < roots.length := by
  have hlength : 0 < roots.length := List.length_pos_iff.mpr h
  unfold rootIndex
  omega

/-- **Every comment is placed**: with all of them in it, a stream with a document holds these
comments and its earlier ones. -/
theorem comments_placeAll (cs : List Comment) {roots : List CommentNode} (h : roots ≠ []) :
    ((cs.foldl placeInDocuments roots).flatMap Tree.comments).Perm
      (cs ++ roots.flatMap Tree.comments) := by
  induction cs generalizing roots with
  | nil => exact List.Perm.refl _
  | cons c cs ih =>
      have hplaced : ((placeInDocuments roots c).flatMap Tree.comments).Perm
          (c :: roots.flatMap Tree.comments) :=
        perm_flatMap_modify (Tree.comments_place _ c _)
          (List.getElem?_eq_getElem (rootIndex_lt h c.line))
      have hne : placeInDocuments roots c ≠ [] := by
        rw [placeInDocuments, ne_eq, List.modify_eq_nil_iff]
        exact h
      rw [List.foldl_cons]
      exact (ih hne).trans ((hplaced.append_left cs).trans List.perm_middle)

end PlaybookLint
