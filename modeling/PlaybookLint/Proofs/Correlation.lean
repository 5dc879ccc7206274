import PlaybookLint.Proofs.Flattening
import PlaybookLint.Suppression.Attachment

/-!
# Pairing tasks with their comments

Two trees with the same content have the same tasks at the same positions. Pairing by position
therefore never comes to a mismatch, and the plan that is made from the pairs can be read off the
comments alone.

## Main statements

* `correlate_of_erase` - trees with the same content are paired completely.
* `eq_of_mem_zip`, `zipLongest_of_map_eq` - the pairs of two lists that agree.
* `Plan.ofPairs_zipLongest` - the plan for tasks that agree.
-/

namespace PlaybookLint

/-- Lists that agree in something agree in it pair by pair. -/
theorem eq_of_mem_zip {f : α → γ} {g : β → γ} {as : List α} {bs : List β}
    (h : as.map f = bs.map g) : ∀ pair ∈ as.zip bs, f pair.1 = g pair.2 := by
  intro pair hpair
  obtain ⟨i, hi, rfl⟩ := List.getElem_of_mem hpair
  rw [List.length_zip, Nat.lt_min] at hi
  have has : i < (as.map f).length := by rw [List.length_map]; exact hi.1
  have hbs : i < (bs.map g).length := by rw [List.length_map]; exact hi.2
  rw [List.getElem_zip]
  calc f as[i] = (as.map f)[i] := (List.getElem_map f).symm
    _ = (bs.map g)[i] := List.getElem_of_eq h has
    _ = g bs[i] := List.getElem_map g

/-- Lists of the same length are paired without gaps. -/
theorem zipLongest_of_length_eq {as : List α} {bs : List β} (h : as.length = bs.length) :
    zipLongest as bs = (as.zip bs).map (Prod.map some some) := by
  induction as generalizing bs with
  | nil =>
      rw [List.eq_nil_of_length_eq_zero h.symm]
      rfl
  | cons a as ih =>
      cases bs with
      | nil => exact nomatch h
      | cons b bs =>
          rw [zipLongest, ih (Nat.succ.inj h)]
          rfl

theorem length_eq_of_map_eq {f : α → γ} {g : β → γ} {as : List α} {bs : List β}
    (h : as.map f = bs.map g) : as.length = bs.length := by
  rw [← List.length_map f, h, List.length_map]

/-- Lists that agree in something are paired without gaps, and every pair agrees. -/
theorem zipLongest_of_map_eq {f : α → γ} {g : β → γ} {as : List α} {bs : List β}
    (h : as.map f = bs.map g) :
    (zipLongest as bs).map Prod.fst = as.map some ∧
      ∀ pair ∈ zipLongest as bs, ∃ a b, pair = (some a, some b) ∧ f a = g b := by
  have hlength := length_eq_of_map_eq h
  rw [zipLongest_of_length_eq hlength]
  refine ⟨?_, fun pair hpair => ?_⟩
  · calc ((as.zip bs).map (Prod.map some some)).map Prod.fst
        = ((as.zip bs).map Prod.fst).map some := by
          rw [List.map_map, List.map_map]
          rfl
      _ = as.map some := by rw [List.map_fst_zip (Nat.le_of_eq hlength)]
  · obtain ⟨⟨a, b⟩, hmem, rfl⟩ := List.mem_map.mp hpair
    exact ⟨a, b, rfl, eq_of_mem_zip h (a, b) hmem⟩

/-- **Pairing is total.**  Trees with the same content are paired, and their tasks agree position by
position. -/
theorem correlate_of_erase {kind : FileKind} {content : Node} {comments : CommentNode}
    {blocks : List (FlatTask (Option (List String)))} (hsame : comments.erase = content.erase)
    (hblocks : content.taskBlocks kind = some blocks) :
    ∃ commented, comments.taskBlocks kind = some commented ∧
      correlate kind content (some comments) =
        some (zipLongest (Tree.flattenTasks blocks) (Tree.flattenTasks commented)) ∧
      (Tree.flattenTasks blocks).map FlatTask.erase =
        (Tree.flattenTasks commented).map FlatTask.erase := by
  obtain ⟨commented, hcommented, hagree⟩ := Tree.taskBlocks_of_erase hsame hblocks
  exact ⟨commented, hcommented, by simp [correlate, hblocks, hcommented], hagree.symm⟩

namespace Plan

/-- The plan for the tasks of some comments: all but the strings. -/
def ofTasks (tasks : List (FlatTask (List Comment))) : List PlannedTask :=
  (tasks.filter fun task => !task.node.isString).map fun task => ⟨task.path, task.node⟩

/-- **No mismatch.**  For tasks that agree, the plan is the one that the comments make alone. -/
theorem ofPairsFrom_zipLongest (position : Nat)
    {tasks : List (FlatTask (Option (List String)))} {commented : List (FlatTask (List Comment))}
    (h : tasks.map FlatTask.erase = commented.map FlatTask.erase) :
    ofPairsFrom position (zipLongest tasks commented) = ⟨ofTasks commented, none⟩ := by
  induction tasks generalizing commented position with
  | nil =>
      cases commented with
      | nil => rfl
      | cons => exact nomatch h
  | cons task tasks ih =>
      cases commented with
      | nil => exact nomatch h
      | cons comment commented =>
          rw [List.map_cons, List.map_cons, List.cons.injEq] at h
          obtain ⟨hpath, hnode⟩ := FlatTask.erase_eq h.1
          have hstring := Tree.isString_eq_of_erase hnode
          have hname := Tree.taskName?_eq_of_erase hnode
          rw [zipLongest, ofPairsFrom, ofPair, ih (position + 1) h.2, hstring, hname, hpath,
            ofTasks, ofTasks, List.filter_cons]
          cases comment.node.isString <;> simp

theorem ofPairs_zipLongest {tasks : List (FlatTask (Option (List String)))}
    {commented : List (FlatTask (List Comment))}
    (h : tasks.map FlatTask.erase = commented.map FlatTask.erase) :
    ofPairs (zipLongest tasks commented) = ⟨ofTasks commented, none⟩ :=
  ofPairsFrom_zipLongest 0 h

end Plan

end PlaybookLint
