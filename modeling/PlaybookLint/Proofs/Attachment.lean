import PlaybookLint.Document
import PlaybookLint.Proofs.Correlation
import PlaybookLint.Proofs.Reading

/-!
# Lists on tasks

What is read from a text has no suppression lists. Attaching puts one list on every task that is no
string, namely the list of the comments at the same path, and puts none anywhere else. The tasks
that the rules look at are the tasks that have been given their lists.

## Main definitions

* `Plan.attachAll` - the tree with the lists of some planned tasks.
* `PairsAgree` - what pairing the tasks of a file with their comments comes to.
* `ListsOnTasks` - where lists stand in a tree, and which.

## Main statements

* `Plan.note_attachAll_of_mem`, `Plan.note_attachAll_of_notMem` - the notes after attaching.
* `Plan.erase_attachAll`, `Plan.keys_attachAll` - content and keys stay.
* `Document.node_tasks` - the rules look at the flattened tasks that are mappings.
* `tasks_covered` - pairing never fails, and attaching covers every task.
-/

namespace PlaybookLint

/-! ### What is read has no lists -/

namespace Tree

/-- A node that no list has been attached to, and no part of it either. -/
def Unlisted (node : Node) : Prop :=
  node.map (fun _ => none) = node

theorem Unlisted.note_eq_none {node : Node} (h : node.Unlisted) : node.note = none :=
  (note_eq_of_map_eq_self h).symm

theorem Unlisted.at? {root node : Node} (h : root.Unlisted) {path : TreePath}
    (hnode : root.at? path = some node) : node.Unlisted :=
  map_eq_self_of_at? h hnode

theorem Unlisted.keys {node : Node} (h : node.Unlisted) : ∀ e ∈ node.entries, e.1.Unlisted :=
  fun _ he => map_eq_self_of_mem_entries h he

end Tree

theorem Node.unlisted_of_mem_documents {events : List Yaml.Event} :
    ∀ root ∈ Node.documents events, root.Unlisted := by
  intro root hroot
  rw [← CommentReader.content_documents [] [] events] at hroot
  obtain ⟨node, -, rfl⟩ := List.mem_map.mp hroot
  exact Tree.map_map _ _ node

/-- Neither has the only document of a stream. -/
theorem Node.unlisted_of_documents_eq {events : List Yaml.Event} {root : Node}
    (hone : Node.documents events = [root]) : root.Unlisted :=
  Node.unlisted_of_mem_documents root (hone ▸ List.mem_singleton_self root)

/-! ### The frame of attaching -/

namespace Plan

/-- The tree with the lists of some planned tasks attached. -/
def attachAll (planned : List PlannedTask) (root : Node) : Node :=
  planned.foldl attach root

theorem erase_attachAll (planned : List PlannedTask) (root : Node) :
    (attachAll planned root).erase = root.erase := by
  induction planned generalizing root with
  | nil => rfl
  | cons task planned ih =>
      have hone : (attach root task).erase = root.erase :=
        Tree.erase_updateAt (Tree.changesNote_setNote _) task.path root
      exact (ih (attach root task)).trans hone

theorem note_attach (root : Node) (task : PlannedTask) (p : TreePath) :
    ((attach root task).at? p).map Tree.note =
      if task.path = p then (root.at? p).map fun _ => some task.comments.subtreeSkips
      else (root.at? p).map Tree.note := by
  rw [attach, Tree.note_at?_updateAt (Tree.changesNote_setNote _)]
  simp only [Tree.note_setNote]
  split <;> rfl

/-- Where no task is planned, the note stays. -/
theorem note_attachAll_of_notMem {planned : List PlannedTask} {p : TreePath}
    (h : p ∉ planned.map PlannedTask.path) (root : Node) :
    ((attachAll planned root).at? p).map Tree.note = (root.at? p).map Tree.note := by
  induction planned generalizing root with
  | nil => rfl
  | cons task planned ih =>
      rw [List.map_cons, List.mem_cons, not_or] at h
      rw [attachAll, List.foldl_cons, ← attachAll, ih h.2, note_attach, if_neg (Ne.symm h.1)]

/-- Where tasks are planned, all of them with the same comments, the list of these comments stands
afterwards. -/
theorem note_attachAll_of_mem {planned : List PlannedTask} {p : TreePath} {comments : CommentNode}
    (hsame : ∀ task ∈ planned, task.path = p → task.comments = comments)
    (h : p ∈ planned.map PlannedTask.path) (root : Node) :
    ((attachAll planned root).at? p).map Tree.note =
      (root.at? p).map fun _ => some comments.subtreeSkips := by
  induction planned generalizing root with
  | nil => exact nomatch h
  | cons task planned ih =>
      obtain ⟨hhead, htail⟩ := List.forall_mem_cons.mp hsame
      rw [attachAll, List.foldl_cons, ← attachAll]
      by_cases hlater : p ∈ planned.map PlannedTask.path
      · -- a later task has the last word
        rw [ih htail hlater, attach, Tree.at?_updateAt (Tree.changesNote_setNote _)]
        split
        · rw [Option.map_map]
          rfl
        · rfl
      · have hpath : task.path = p := by
          rw [List.map_cons, List.mem_cons] at h
          exact (h.resolve_right hlater).symm
        rw [note_attachAll_of_notMem hlater, note_attach, if_pos hpath, hhead hpath]

/-- Attaching leaves the keys of all mappings as they are. -/
theorem keys_attachAll (planned : List PlannedTask) (root : Node) (p : TreePath) :
    ((attachAll planned root).at? p).map Tree.keys = (root.at? p).map Tree.keys := by
  induction planned generalizing root with
  | nil => rfl
  | cons task planned ih =>
      rw [attachAll, List.foldl_cons, ← attachAll, ih, attach,
        Tree.keys_at?_updateAt (Tree.changesNote_setNote _)]

end Plan

/-! ### What the rules look at -/

namespace Document

theorem node_tasksOfList (isHandler : Bool) (items : List Node) :
    (tasksOfList isHandler items).map Task.node =
      ((Tree.flattenTasks (Tree.indexItems [] items)).map FlatTask.node).filter
        Tree.isMapping := by
  rw [tasksOfList]
  induction Tree.flattenTasks (Tree.indexItems [] items) with
  | nil => rfl
  | cons task tasks ih =>
      rw [List.filterMap_cons, List.map_cons, List.filter_cons, ← ih, Task.ofNode?]
      cases task.node.isMapping <;> rfl

theorem node_tasksOfPlay {path : TreePath} {play : Node}
    {blocks : List (FlatTask (Option (List String)))}
    (h : Tree.playBlocks path play = some blocks) :
    (tasksOfPlay play).map Task.node =
      ((Tree.flattenTasks blocks).map FlatTask.node).filter Tree.isMapping := by
  rw [(Tree.node_playBlocks h).2, tasksOfPlay, List.map_flatMap, List.filter_flatMap]
  congr 1
  funext key
  exact node_tasksOfList _ _

section Plays

variable {plays : List Node} {parts : List (List (FlatTask (Option (List String))))}

/-- A playbook with task lists has mappings for plays only. -/
theorem isMapping_of_playBlocks
    (hparts : (Tree.indexItems [] plays).mapM
      (fun play => Tree.playBlocks play.path play.node) = some parts) :
    ∀ play ∈ plays, play.isMapping = true := by
  intro play hplay
  rw [← Tree.node_indexItems [] plays] at hplay
  obtain ⟨task, htask, rfl⟩ := List.mem_map.mp hplay
  have hpart : Tree.playBlocks task.path task.node ∈ parts.map some := by
    rw [← map_eq_map_of_mapM hparts fun _ _ h => h]
    exact List.mem_map_of_mem htask
  obtain ⟨part, -, hpart⟩ := List.mem_map.mp hpart
  exact (Tree.node_playBlocks hpart.symm).1

theorem node_tasksOfPlays
    (hparts : (Tree.indexItems [] plays).mapM
      (fun play => Tree.playBlocks play.path play.node) = some parts) :
    (plays.flatMap tasksOfPlay).map Task.node =
      ((Tree.flattenTasks parts.flatten).map FlatTask.node).filter Tree.isMapping :=
  calc (plays.flatMap tasksOfPlay).map Task.node
      = (((Tree.indexItems [] plays).map FlatTask.node).flatMap tasksOfPlay).map Task.node := by
        rw [Tree.node_indexItems]
    _ = ((Tree.indexItems [] plays).map fun play =>
          (tasksOfPlay play.node).map Task.node).flatten := by
        rw [List.flatMap_map, List.map_flatMap, List.flatMap_def]
    _ = (parts.map fun part =>
          ((Tree.flattenTasks part).map FlatTask.node).filter Tree.isMapping).flatten :=
        congrArg List.flatten
          (map_eq_map_of_mapM hparts fun _ _ hpart => node_tasksOfPlay hpart)
    _ = ((Tree.flattenTasks parts.flatten).map FlatTask.node).filter Tree.isMapping := by
        rw [Tree.flattenTasks_flatten, List.map_flatMap, List.filter_flatMap, List.flatMap_def]

end Plays

/-- **What the rules look at.**  If a document has task lists, its tasks are, in order, the
flattened tasks that are mappings. -/
theorem node_tasks {doc : Document} {blocks : List (FlatTask (Option (List String)))}
    (h : doc.data.taskBlocks doc.kind = some blocks) :
    doc.tasks.map Task.node =
      ((Tree.flattenTasks blocks).map FlatTask.node).filter Tree.isMapping := by
  unfold tasks
  cases hkind : doc.kind with
  | tasks | handlers =>
      rw [hkind] at h
      obtain ⟨items, hitems, rfl⟩ := Option.map_eq_some_iff.mp h
      rw [Tree.items, hitems]
      exact node_tasksOfList _ items
  | playbook =>
      rw [hkind] at h
      obtain ⟨plays, hplays, h⟩ := Option.bind_eq_some_iff.mp h
      obtain ⟨parts, hparts, rfl⟩ := Option.map_eq_some_iff.mp h
      have hall : doc.plays = plays := by
        rw [Document.plays, hkind, Tree.items, hplays, Option.getD_some]
        exact List.filter_eq_self.mpr (isMapping_of_playBlocks hparts)
      dsimp only
      rw [hall]
      exact node_tasksOfPlays hparts
  | _ =>
      rw [hkind] at h
      cases h

end Document

/-! ### Lists on tasks -/

/-- The pairs cover some tasks: one pair for each of them, both sides present, with the same path
and the same name. -/
structure PairsAgree (pairs : List TaskPair) (tasks : List (FlatTask (Option (List String)))) :
    Prop where
  covers : pairs.map Prod.fst = tasks.map some
  both : ∀ pair ∈ pairs, ∃ task comment, pair = (some task, some comment) ∧
    task.path = comment.path ∧ task.node.taskName? = comment.node.taskName?

/-- The lists in a tree stand on its flattened tasks and nowhere else. -/
structure ListsOnTasks (data : Node) (comments : CommentNode)
    (tasks : List (FlatTask (Option (List String)))) : Prop where
  /-- The path of a task leads to it. -/
  leads : ∀ task ∈ tasks, data.at? task.path = some task.node
  /-- A task that is no string has the list of the comments at the same path, which have the content
  of the task. The list is a set. -/
  listed : ∀ task ∈ tasks, task.node.isString = false → ∃ comment,
    comments.at? task.path = some comment ∧ comment.erase = task.node.erase ∧
      task.node.note = some comment.subtreeSkips ∧ comment.subtreeSkips.Pairwise (· < ·)
  /-- A string has none. -/
  strings : ∀ task ∈ tasks, task.node.isString = true → task.node.note = none
  /-- Neither has anything else that a path leads to. -/
  only : ∀ path node, data.at? path = some node → node.note ≠ none →
    ∃ task ∈ tasks, task.path = path ∧ task.node.isString = false
  /-- Paths lead to values; no part of a key has a list. -/
  keys : ∀ path node, data.at? path = some node → ∀ e ∈ node.entries, e.1.Unlisted

theorem Notice.tag?_of_mem_ofComments {file : Path} {comments : List Comment} :
    ∀ notice ∈ Notice.ofComments file comments, notice.tag?.isSome = true := by
  intro notice hnotice
  obtain ⟨c, -, hc⟩ := List.mem_flatMap.mp hnotice
  obtain ⟨tag, -, htag⟩ := List.mem_filterMap.mp hc
  obtain ⟨current, -, rfl⟩ := Option.map_eq_some_iff.mp htag
  rfl

section Attached

variable {kind : FileKind} {root : Node} {comments : CommentNode}
variable {blocks : List (FlatTask (Option (List String)))}

theorem isFlat_eq_false_of_taskBlocks (h : root.taskBlocks kind = some blocks) :
    kind.isFlat = false := by
  cases kind with
  | tasks | handlers | playbook => rfl
  | _ => exact nomatch h

theorem Plan.mem_ofTasks {tasks : List (FlatTask (List Comment))} {planned : PlannedTask} :
    planned ∈ Plan.ofTasks tasks ↔
      ∃ task ∈ tasks, task.node.isString = false ∧ planned = ⟨task.path, task.node⟩ := by
  rw [Plan.ofTasks, List.mem_map]
  constructor
  · rintro ⟨task, htask, rfl⟩
    rw [List.mem_filter, Bool.not_eq_true'] at htask
    exact ⟨task, htask.1, htask.2, rfl⟩
  · rintro ⟨task, htask, hstring, rfl⟩
    exact ⟨task, List.mem_filter.mpr ⟨htask, by rw [hstring]; rfl⟩, rfl⟩

namespace Plan

/-- Where no task is planned, there is no list afterwards. -/
theorem note_eq_none_of_notMem {planned : List PlannedTask} {p : TreePath} {node : Node}
    (hroot : root.Unlisted) (hp : p ∉ planned.map PlannedTask.path)
    (hnode : (attachAll planned root).at? p = some node) : node.note = none := by
  have hframe := note_attachAll_of_notMem hp root
  rw [hnode, Option.map_some] at hframe
  obtain ⟨old, hold, hnote⟩ := Option.map_eq_some_iff.mp hframe.symm
  rw [← hnote]
  exact (hroot.at? hold).note_eq_none

/-- No part of a key has a list afterwards. -/
theorem unlisted_keys_attachAll {planned : List PlannedTask} {p : TreePath} {node : Node}
    (hroot : root.Unlisted) (hnode : (attachAll planned root).at? p = some node) :
    ∀ e ∈ node.entries, e.1.Unlisted := by
  intro e he
  have hkeys := keys_attachAll planned root p
  rw [hnode, Option.map_some] at hkeys
  obtain ⟨old, hold, hsame⟩ := Option.map_eq_some_iff.mp hkeys.symm
  have hkey : e.1 ∈ old.keys := by
    rw [hsame]
    exact List.mem_map_of_mem he
  obtain ⟨e', he', hfst⟩ := List.mem_map.mp hkey
  exact hfst ▸ (hroot.at? hold).keys e' he'

section Commented

variable {commented : List (FlatTask (List Comment))} {task : FlatTask (List Comment)}

/-- A path leads to one node of the comments, whichever task is planned for it. -/
theorem comments_eq_of_path_eq (hcommented : comments.taskBlocks kind = some commented)
    (htask : task ∈ Tree.flattenTasks commented) :
    ∀ planned ∈ ofTasks (Tree.flattenTasks commented), planned.path = task.path →
      planned.comments = task.node := by
  intro planned hplanned hpath
  obtain ⟨other, hother, -, rfl⟩ := mem_ofTasks.mp hplanned
  have hat := Tree.at?_of_mem_flattenTasks hcommented other hother
  rw [show other.path = task.path from hpath,
    Tree.at?_of_mem_flattenTasks hcommented task htask] at hat
  exact (Option.some.inj hat).symm

/-- A task that is no string has the list of its comments afterwards. -/
theorem note_eq_of_task (hcommented : comments.taskBlocks kind = some commented)
    (htask : task ∈ Tree.flattenTasks commented) (hstring : task.node.isString = false)
    {node : Node}
    (hnode : (attachAll (ofTasks (Tree.flattenTasks commented)) root).at? task.path = some node) :
    node.note = some task.node.subtreeSkips := by
  have hplanned : (⟨task.path, task.node⟩ : PlannedTask) ∈ ofTasks (Tree.flattenTasks commented) :=
    mem_ofTasks.mpr ⟨task, htask, hstring, rfl⟩
  have hattached := note_attachAll_of_mem (comments_eq_of_path_eq hcommented htask)
    (List.mem_map_of_mem hplanned) root
  rw [hnode, Option.map_some] at hattached
  obtain ⟨-, -, hskips⟩ := Option.map_eq_some_iff.mp hattached.symm
  exact hskips.symm

/-- Nothing is planned at the path of a string. -/
theorem path_notMem_of_isString (hcommented : comments.taskBlocks kind = some commented)
    (htask : task ∈ Tree.flattenTasks commented)
    (hstring : task.node.isString = true) :
    task.path ∉ (ofTasks (Tree.flattenTasks commented)).map PlannedTask.path := by
  intro hmem
  obtain ⟨planned, hplanned, hpath⟩ := List.mem_map.mp hmem
  have hnode := comments_eq_of_path_eq hcommented htask planned hplanned hpath
  obtain ⟨other, -, hnot, rfl⟩ := mem_ofTasks.mp hplanned
  rw [show other.node = task.node from hnode, hstring] at hnot
  exact nomatch hnot

end Commented

end Plan

/-- Attaching the lists of the tasks in the comments puts them on the tasks of the content. -/
theorem listsOnTasks_attachAll {commented : List (FlatTask (List Comment))}
    (hroot : root.Unlisted) (hsame : comments.erase = root.erase)
    (hcommented : comments.taskBlocks kind = some commented) :
    let data := Plan.attachAll (Plan.ofTasks (Tree.flattenTasks commented)) root
    ∃ own, data.taskBlocks kind = some own ∧
      ListsOnTasks data comments (Tree.flattenTasks own) := by
  intro data
  have hdata : data.erase = comments.erase := by
    rw [Plan.erase_attachAll, hsame]
  obtain ⟨own, hown, hagree⟩ := Tree.taskBlocks_of_erase hdata hcommented
  have hleads := Tree.at?_of_mem_flattenTasks hown
  refine ⟨own, hown, hleads, ?listed, ?strings, ?only, ?keys⟩
  case listed =>
    intro task htask hstring
    obtain ⟨comment, hmem, hpath, herase⟩ := FlatTask.exists_counterpart hagree htask
    have hnot : comment.node.isString = false :=
      (Tree.isString_eq_of_erase herase).symm.trans hstring
    have hat : data.at? comment.path = some task.node := hpath ▸ hleads task htask
    have hcomment := Tree.at?_of_mem_flattenTasks hcommented comment hmem
    exact ⟨comment.node, hpath ▸ hcomment, herase.symm,
      Plan.note_eq_of_task hcommented hmem hnot hat, NameSet.pairwise_ofList _⟩
  case strings =>
    intro task htask hstring
    obtain ⟨comment, hmem, hpath, herase⟩ := FlatTask.exists_counterpart hagree htask
    have hplain := (Tree.isString_eq_of_erase herase).symm.trans hstring
    have hnotMem := Plan.path_notMem_of_isString hcommented hmem hplain
    exact Plan.note_eq_none_of_notMem hroot (hpath ▸ hnotMem) (hleads task htask)
  case only =>
    intro p node hnode hne
    have hmem : p ∈ (Plan.ofTasks (Tree.flattenTasks commented)).map PlannedTask.path :=
      Decidable.byContradiction fun hmem => hne (Plan.note_eq_none_of_notMem hroot hmem hnode)
    obtain ⟨planned, hplanned, rfl⟩ := List.mem_map.mp hmem
    obtain ⟨comment, hcomment, hstring, rfl⟩ := Plan.mem_ofTasks.mp hplanned
    obtain ⟨task, htask, hpath, herase⟩ := FlatTask.exists_counterpart hagree.symm hcomment
    exact ⟨task, htask, hpath.symm, (Tree.isString_eq_of_erase herase).symm.trans hstring⟩
  case keys => exact fun p node hnode => Plan.unlisted_keys_attachAll hroot hnode

/-- **Attaching always goes through**: the lists of a file with tasks are those that its comments
plan, and no mismatch is noticed. -/
theorem attachSkips_eq_attachAll {tree : CommentTree} (htree : tree.root? = some comments)
    (hsame : comments.erase = root.erase) (hblocks : root.taskBlocks kind = some blocks) :
    ∃ commented, comments.taskBlocks kind = some commented ∧
      attachSkips kind tree root =
        Plan.attachAll (Plan.ofTasks (Tree.flattenTasks commented)) root ∧
      ∀ file mismatch, Notice.uncorrelated file mismatch ∉ attachNotices file kind tree root := by
  obtain ⟨commented, hcommented, hpairs, hagree⟩ := correlate_of_erase hsame hblocks
  have hplan := Plan.ofPairs_zipLongest hagree
  have hflat := isFlat_eq_false_of_taskBlocks hblocks
  refine ⟨commented, hcommented, ?_, fun file mismatch hmem => ?_⟩
  · rw [attachSkips, hflat, if_neg Bool.false_ne_true, htree, hpairs]
    dsimp only
    rw [hplan]
    rfl
  · rw [attachNotices, hflat, if_neg Bool.false_ne_true, htree, hpairs] at hmem
    dsimp only at hmem
    rw [hplan, Plan.notices, List.mem_append] at hmem
    obtain hcomments | hmismatch := hmem
    · obtain ⟨task, -, htask⟩ := List.mem_flatMap.mp hcomments
      exact nomatch Notice.tag?_of_mem_ofComments _ htask
    · exact nomatch hmismatch

/-- Once attached, the lists of a file stand on its tasks. -/
theorem listsOnTasks_attachSkips {tree : CommentTree} (hroot : root.Unlisted)
    (htree : tree.root? = some comments) (hsame : comments.erase = root.erase)
    (hblocks : root.taskBlocks kind = some blocks) :
    ∃ own, (attachSkips kind tree root).taskBlocks kind = some own ∧
      ListsOnTasks (attachSkips kind tree root) comments (Tree.flattenTasks own) := by
  obtain ⟨commented, hcommented, hattach, -⟩ := attachSkips_eq_attachAll htree hsame hblocks
  rw [hattach]
  exact listsOnTasks_attachAll hroot hsame hcommented

end Attached

/-- **The tasks of a file and of its comments always match.**  Take any stream with one document
whose content has the task lists that its kind promises. Pairing its tasks with those of its
comments gives one complete pair for each task, and no mismatch is noticed. Afterwards the rules
look at exactly the flattened tasks that are mappings, and the lists stand on the flattened tasks:
each has the list of the comments at its path, bare strings have none, and nothing else has one. -/
theorem tasks_covered (path : Path) (override : Option FileKind) (source : List Char)
    {events : List Yaml.Event} {root : Node} (hone : Node.documents events = [root])
    {blocks : List (FlatTask (Option (List String)))}
    (hblocks : root.taskBlocks (override.getD (FileKind.detect path root)) = some blocks) :
    let tree := CommentTree.ofEvents source events
    let doc := Document.ofTrees path override root tree
    ∃ comments pairs own,
      tree.root? = some comments ∧
      correlate doc.kind root tree.root? = some pairs ∧
      PairsAgree pairs (Tree.flattenTasks blocks) ∧
      (∀ file mismatch, Notice.uncorrelated file mismatch ∉ attachNotices file doc.kind tree root) ∧
      doc.data.taskBlocks doc.kind = some own ∧
      ((Tree.flattenTasks own).map FlatTask.node).filter Tree.isMapping =
        doc.tasks.map Task.node ∧
      ListsOnTasks doc.data comments (Tree.flattenTasks own) := by
  intro tree doc
  obtain ⟨comments, htree, hsame⟩ := CommentTree.exists_root hone source
  obtain ⟨commented, -, hpairs, hagree⟩ := correlate_of_erase hsame hblocks
  obtain ⟨-, -, -, hnotices⟩ := attachSkips_eq_attachAll htree hsame hblocks
  have hroot := Node.unlisted_of_documents_eq hone
  obtain ⟨own, hown, hlists⟩ := listsOnTasks_attachSkips hroot htree hsame hblocks
  obtain ⟨hcovers, hboth⟩ := zipLongest_of_map_eq hagree
  refine ⟨comments, _, own, htree, ?_, ⟨hcovers, fun pair hpair => ?_⟩, hnotices, hown,
    (Document.node_tasks hown).symm, hlists⟩
  · rw [htree]
    exact hpairs
  · obtain ⟨task, comment, rfl, herase⟩ := hboth pair hpair
    obtain ⟨hpath, hnode⟩ := FlatTask.erase_eq herase
    exact ⟨task, comment, rfl, hpath, Tree.taskName?_eq_of_erase hnode⟩

/-- The theorem applies to a list of tasks with a block in it: the task in the block, the block and
the bare string are its three flattened tasks. -/
theorem tasks_covered_block :
    let text := "- block:\n  - ping:  # noqa: fqcn\n- just text\n"
    let events := (Yaml.Event.read text).toOption.getD []
    let tree := CommentTree.ofEvents text.toList events
    let doc := Document.ofTrees ⟨"main.yml"⟩ (some .tasks) (Node.ofEvents events) tree
    ∃ comments own, tree.root? = some comments ∧ doc.data.taskBlocks .tasks = some own ∧
      ((doc.data.taskBlocks .tasks).map fun own => (Tree.flattenTasks own).length) = some 3 ∧
      ListsOnTasks doc.data comments (Tree.flattenTasks own) := by
  intro text events tree doc
  have hone : Node.documents events = [Node.ofEvents events] :=
    Node.documents_eq_singleton (by decide +kernel)
  have hblocks : ((Node.ofEvents events).taskBlocks .tasks).isSome = true := by decide +kernel
  obtain ⟨comments, pairs, own, htree, -, -, -, hown, -, hlists⟩ :=
    tasks_covered ⟨"main.yml"⟩ (some .tasks) text.toList hone (Option.some_get hblocks).symm
  exact ⟨comments, own, htree, hown, by decide +kernel, hlists⟩

end PlaybookLint
