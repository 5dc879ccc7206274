import Mathlib.Data.Nat.Find
import PlaybookLint.Proofs.Attachment
import PlaybookLint.Proofs.TaskOrder

/-!
# All lists or none

The content of a file and the comments that it is matched with may come from different texts. Their
tasks may then disagree anywhere, in their names or in their number. If they do, nothing is attached
at all, and one notice says where they stopped to agree. If they do not, the lists that were planned
are attached, and nothing else is changed.

## Main definitions

* `FailsAt` - two sequences of tasks disagree at a position.
* `plannedLists`, `rootLists` - the lists that a file is to get.
* `Attaches` - a tree is another one with some lists attached.

## Main statements

* `Plan.ofPairs_of_agree`, `Plan.mismatch_of_failsAt` - what is planned for two sequences of tasks.
* `attach_all_or_nothing` - lists are attached all together or not at all.
-/

namespace PlaybookLint

/-- The tasks of a content. -/
abbrev ContentTasks := List (FlatTask (Option (List String)))

/-- The tasks of some comments. -/
abbrev CommentTasks := List (FlatTask (List Comment))

/-! ### Where tasks disagree -/

/-- The tasks disagree at a position: both are there, with different names, or just one of them is.
A bare string has nothing to disagree about. -/
def FailsAt (tasks : ContentTasks) (commented : CommentTasks) (i : Nat) : Prop :=
  match tasks[i]?, commented[i]? with
  | some task, some comment =>
    task.node.isString = false ∧ task.node.taskName? ≠ comment.node.taskName?
  | some task, none => task.node.isString = false
  | none, some _ => True
  | none, none => False

instance (tasks : ContentTasks) (commented : CommentTasks) (i : Nat) :
    Decidable (FailsAt tasks commented i) := by
  unfold FailsAt
  split <;> infer_instance

/-- What is noticed about two sequences of tasks that disagree at a position. -/
def mismatchAt (tasks : ContentTasks) (commented : CommentTasks) (i : Nat) : Mismatch :=
  ⟨i, tasks[i]?.bind fun task => task.node.taskName?,
    commented[i]?.bind fun comment => comment.node.taskName?⟩

/-- The tasks that are to get the markers of the comments at the same position: all but the
strings. -/
def plannedTasks (tasks : ContentTasks) (commented : CommentTasks) : List PlannedTask :=
  ((tasks.zip commented).filter fun pair => !pair.1.node.isString).map fun pair =>
    ⟨pair.1.path, pair.2.node⟩

/-! ### Plans, position by position -/

section Heads

variable {task : FlatTask (Option (List String))} {tasks : ContentTasks} {commented : CommentTasks}

theorem failsAt_succ {i : Nat} :
    FailsAt (task :: tasks) commented (i + 1) ↔ FailsAt tasks commented.tail i := by
  cases commented <;> simp [FailsAt]

theorem eq_nil_of_not_failsAt (h : ¬ FailsAt [] commented 0) : commented = [] := by
  cases commented with
  | nil => rfl
  | cons comment commented => exact absurd trivial h

theorem mismatchAt_succ {i : Nat} :
    mismatchAt (task :: tasks) commented (i + 1) =
      { mismatchAt tasks commented.tail i with position := i + 1 } := by
  cases commented <;> simp [mismatchAt]

theorem plannedTasks_cons (task : FlatTask (Option (List String))) (tasks : ContentTasks)
    (commented : CommentTasks) :
    plannedTasks (task :: tasks) commented =
      plannedTasks [task] commented ++ plannedTasks tasks commented.tail := by
  cases commented with
  | nil => simp [plannedTasks]
  | cons comment commented =>
      rw [plannedTasks, plannedTasks, plannedTasks, List.zip_cons_cons, List.zip_cons_cons,
        List.filter_cons, List.filter_cons, List.zip_nil_left]
      cases task.node.isString <;> rfl

theorem path_plannedTasks_sublist (tasks : ContentTasks) (commented : CommentTasks) :
    ((plannedTasks tasks commented).map PlannedTask.path).Sublist (tasks.map FlatTask.path) := by
  induction tasks generalizing commented with
  | nil => simp [plannedTasks]
  | cons task tasks ih =>
      have hhead : ((plannedTasks [task] commented).map PlannedTask.path).Sublist [task.path] := by
        cases commented with
        | nil => simp [plannedTasks]
        | cons comment commented =>
            cases hstring : task.node.isString <;> simp [plannedTasks, hstring]
      rw [plannedTasks_cons, List.map_append]
      exact hhead.append (ih commented.tail)

namespace Plan

/-- Where tasks do not disagree, the plan goes on. -/
theorem ofPairsFrom_cons (n : Nat) (h : ¬ FailsAt (task :: tasks) commented 0) :
    ofPairsFrom n (zipLongest (task :: tasks) commented) =
      let later := ofPairsFrom (n + 1) (zipLongest tasks commented.tail)
      ⟨plannedTasks [task] commented ++ later.tasks, later.mismatch⟩ := by
  cases commented with
  | nil =>
      have hstring : task.node.isString = true := by simpa [FailsAt] using h
      rw [zipLongest, ofPairsFrom, ofPair, if_pos hstring]
      simp [plannedTasks]
  | cons comment commented =>
      rw [zipLongest, ofPairsFrom, ofPair]
      cases hstring : task.node.isString with
      | true => simp [plannedTasks, hstring]
      | false =>
          have hname : task.node.taskName? = comment.node.taskName? := by
            by_contra hne
            exact h ⟨hstring, hne⟩
          simp [plannedTasks, hstring, hname]

/-- Where they do, it stops. -/
theorem mismatch_ofPairsFrom (n : Nat) (h : FailsAt tasks commented 0) :
    (ofPairsFrom n (zipLongest tasks commented)).mismatch =
      some { mismatchAt tasks commented 0 with position := n } := by
  cases tasks with
  | nil =>
      cases commented with
      | nil => exact h.elim
      | cons comment commented => rfl
  | cons task tasks =>
      cases commented with
      | nil =>
          have hstring : task.node.isString = false := h
          rw [zipLongest, ofPairsFrom, ofPair, hstring]
          rfl
      | cons comment commented =>
          obtain ⟨hstring, hne⟩ : task.node.isString = false ∧ _ := h
          rw [zipLongest, ofPairsFrom, ofPair, hstring, if_neg Bool.false_ne_true]
          dsimp only
          rw [if_neg hne]
          rfl

/-- **The plan for tasks that agree everywhere** is complete. -/
theorem ofPairsFrom_of_agree (n : Nat) (h : ∀ i, ¬ FailsAt tasks commented i) :
    ofPairsFrom n (zipLongest tasks commented) = ⟨plannedTasks tasks commented, none⟩ := by
  induction tasks generalizing commented n with
  | nil =>
      rw [eq_nil_of_not_failsAt (h 0)]
      rfl
  | cons task tasks ih =>
      have hlater : ∀ i, ¬ FailsAt tasks commented.tail i :=
        fun i => mt failsAt_succ.mpr (h (i + 1))
      rw [ofPairsFrom_cons n (h 0), ih (n + 1) hlater, plannedTasks_cons task tasks]

/-- **The plan for tasks that disagree** stops at the first position where they do. -/
theorem mismatch_of_failsAt {i : Nat} (n : Nat) (hi : FailsAt tasks commented i)
    (hbefore : ∀ j < i, ¬ FailsAt tasks commented j) :
    (ofPairsFrom n (zipLongest tasks commented)).mismatch =
      some { mismatchAt tasks commented i with position := n + i } := by
  induction i generalizing tasks commented n with
  | zero => exact mismatch_ofPairsFrom n hi
  | succ i ih =>
      have hfirst := hbefore 0 (Nat.succ_pos i)
      cases tasks with
      | nil =>
          rw [eq_nil_of_not_failsAt hfirst] at hi
          exact hi.elim
      | cons task tasks =>
          have hlater : ∀ j < i, ¬ FailsAt tasks commented.tail j := fun j hj =>
            mt failsAt_succ.mpr (hbefore (j + 1) (Nat.succ_lt_succ hj))
          rw [ofPairsFrom_cons n hfirst, ih (n + 1) (failsAt_succ.mp hi) hlater, mismatchAt_succ,
            Nat.add_right_comm, Nat.add_assoc]

end Plan

end Heads

/-! ### What attaching changes -/

/-- `result` is `root` with these lists attached, each where its path leads, and with nothing else
changed. -/
structure Attaches (lists : List (TreePath × List String)) (root result : Node) : Prop where
  /-- Every path leads somewhere. -/
  leads : ∀ list ∈ lists, ∃ node, root.at? list.1 = some node
  listed : ∀ list ∈ lists, (result.at? list.1).map Tree.note = some (some list.2)
  others : ∀ path ∉ lists.map Prod.fst,
    (result.at? path).map Tree.note = (root.at? path).map Tree.note
  keys : ∀ path, (result.at? path).map Tree.keys = (root.at? path).map Tree.keys
  content : result.erase = root.erase

theorem attaches_nil (root : Node) : Attaches [] root root :=
  ⟨nofun, nofun, fun _ _ => rfl, fun _ => rfl, rfl⟩

/-- One list is attached. -/
theorem attaches_updateAt {root node : Node} {path : TreePath} (h : root.at? path = some node)
    (skips : List String) :
    Attaches [(path, skips)] root (root.updateAt (Tree.setNote (some skips)) path) where
  leads list hlist := by
    cases List.mem_singleton.mp hlist
    exact ⟨node, h⟩
  listed list hlist := by
    cases List.mem_singleton.mp hlist
    rw [Tree.note_at?_updateAt (Tree.changesNote_setNote _), h]
    simp
  others other hother := by
    have hne : path ≠ other := by simpa [eq_comm] using hother
    rw [Tree.note_at?_updateAt (Tree.changesNote_setNote _)]
    simp only [if_neg hne]
  keys other := Tree.keys_at?_updateAt (Tree.changesNote_setNote _) path root other
  content := Tree.erase_updateAt (Tree.changesNote_setNote _) path root

/-- The lists of planned tasks. -/
def listsOf (planned : List PlannedTask) : List (TreePath × List String) :=
  planned.map fun task => (task.path, task.comments.subtreeSkips)

theorem fst_listsOf (planned : List PlannedTask) :
    (listsOf planned).map Prod.fst = planned.map PlannedTask.path := by
  rw [listsOf, List.map_map]
  rfl

/-- **All lists of a plan are attached**, if the tasks that are planned stand at different paths. -/
theorem Plan.attaches_attachAll {root : Node} {planned : List PlannedTask}
    (hnodup : (planned.map PlannedTask.path).Nodup)
    (hleads : ∀ task ∈ planned, ∃ node, root.at? task.path = some node) :
    Attaches (listsOf planned) root (attachAll planned root) where
  leads list hlist := by
    obtain ⟨task, htask, rfl⟩ := List.mem_map.mp hlist
    exact hleads task htask
  listed list hlist := by
    obtain ⟨task, htask, rfl⟩ := List.mem_map.mp hlist
    obtain ⟨node, hnode⟩ := hleads task htask
    have hsame : ∀ other ∈ planned, other.path = task.path → other.comments = task.comments := by
      intro other hother hpath
      rw [List.inj_on_of_nodup_map hnodup hother htask hpath]
    rw [note_attachAll_of_mem hsame (List.mem_map_of_mem htask), hnode]
    rfl
  others path hpath := by
    rw [fst_listsOf] at hpath
    exact note_attachAll_of_notMem hpath root
  keys path := keys_attachAll planned root path
  content := erase_attachAll planned root

/-- A list that is made from markers says something if a marker has identifiers. -/
theorem isEmpty_skipsOfComments (comments : List Comment) :
    (skipsOfComments comments).isEmpty = !comments.any fun c => c.isMarker && !c.names.isEmpty := by
  have hiff : skipsOfComments comments ≠ [] ↔ ∃ c ∈ comments, c.isMarker = true ∧ c.names ≠ [] := by
    constructor
    · intro hne
      obtain ⟨name, hname⟩ := List.exists_mem_of_ne_nil _ hne
      obtain ⟨c, hc, hmarker, hskip⟩ := mem_skipsOfComments.mp hname
      refine ⟨c, hc, hmarker, fun hnone => ?_⟩
      rw [Comment.skips, hnone] at hskip
      exact nomatch hskip
    · rintro ⟨c, hc, hmarker, hne⟩
      obtain ⟨name, hname⟩ := List.exists_mem_of_ne_nil _ hne
      exact List.ne_nil_of_mem
        (mem_skipsOfComments.mpr ⟨c, hc, hmarker, List.mem_map_of_mem hname⟩)
  rw [Bool.eq_iff_iff, List.isEmpty_iff, Bool.not_eq_true', ← Bool.not_eq_true, List.any_eq_true,
    ← not_iff_not, not_not, ← ne_eq, hiff]
  simp

/-- The lists that a file without tasks is to get: a mapping gets one for its root, and a sequence
one for its first item, if it has one and a marker has identifiers. -/
def rootLists (comments : List Comment) : Node → List (TreePath × List String)
  | .mapping .. => [([], skipsOfComments comments)]
  | .sequence _ _ (_ :: _) =>
    if comments.any fun c => c.isMarker && !c.names.isEmpty then
      [([.item 0], skipsOfComments comments)]
    else []
  | _ => []

theorem attaches_attachToRoot (comments : List Comment) (root : Node) :
    Attaches (rootLists comments root) root (attachToRoot (skipsOfComments comments) root) := by
  cases root with
  | scalar line note value => exact attaches_nil _
  | mapping line note entries =>
      have hone := attaches_updateAt (Tree.at?_nil (Tree.mapping line note entries))
        (skipsOfComments comments)
      rwa [Tree.updateAt_nil] at hone
  | sequence line note items =>
      cases items with
      | nil => exact attaches_nil _
      | cons first items =>
          have hfirst : (Tree.sequence line note (first :: items)).at? [.item 0] = some first := by
            rw [Tree.at?_cons, Tree.child?, List.getElem?_cons_zero, Option.bind_some, Tree.at?_nil]
          have hone := attaches_updateAt hfirst (skipsOfComments comments)
          rw [Tree.updateAt, List.modify_zero_cons, Tree.updateAt_nil] at hone
          rw [rootLists, attachToRoot, isEmpty_skipsOfComments]
          cases comments.any fun c => c.isMarker && !c.names.isEmpty with
          | true => exact hone
          | false => exact attaches_nil _

/-! ### Attaching as a whole -/

/-- Whether a notice says that the tasks of a file and those of its comments do not agree. -/
def Notice.isMismatch : Notice → Bool
  | .uncorrelated .. => true
  | _ => false

theorem Notice.filter_isMismatch_ofComments (file : Path) (comments : List Comment) :
    (Notice.ofComments file comments).filter Notice.isMismatch = [] := by
  refine List.filter_eq_nil_iff.mpr fun notice hnotice hmismatch => ?_
  have htag := Notice.tag?_of_mem_ofComments notice hnotice
  cases notice with
  | outdated => exact nomatch hmismatch
  | uncorrelated => exact nomatch htag
  | unreadable => exact nomatch htag

theorem Plan.filter_isMismatch_notices (file : Path) (plan : Plan) :
    (plan.notices file).filter Notice.isMismatch =
      plan.mismatch.toList.map (Notice.uncorrelated file) := by
  have hcomments : (plan.tasks.flatMap fun task =>
      Notice.ofComments file task.comments.comments).filter Notice.isMismatch = [] := by
    rw [List.filter_flatMap]
    simp [Notice.filter_isMismatch_ofComments]
  rw [Plan.notices, List.filter_append, hcomments, List.nil_append]
  cases plan.mismatch <;> rfl

section Correlated

variable {kind : FileKind} {tree : CommentTree} {root : Node} {comments : CommentNode}
variable {blocks : List (FlatTask (Option (List String)))}
variable {commentBlocks : List (FlatTask (List Comment))}

/-- What attaching comes to where both trees have task lists. -/
theorem attach_of_taskBlocks (file : Path) (htree : tree.root? = some comments)
    (hblocks : root.taskBlocks kind = some blocks)
    (hcomments : comments.taskBlocks kind = some commentBlocks) :
    let plan := Plan.ofPairs
      (zipLongest (Tree.flattenTasks blocks) (Tree.flattenTasks commentBlocks))
    attachSkips kind tree root = plan.apply root ∧
      attachNotices file kind tree root = plan.notices file := by
  intro plan
  have hflat := isFlat_eq_false_of_taskBlocks hblocks
  have hpairs : correlate kind root tree.root? =
      some (zipLongest (Tree.flattenTasks blocks) (Tree.flattenTasks commentBlocks)) := by
    rw [htree]
    simp [correlate, hblocks, hcomments]
  rw [attachSkips, attachNotices, hflat, if_neg Bool.false_ne_true, if_neg Bool.false_ne_true,
    hpairs]
  exact ⟨rfl, rfl⟩

/-- The tasks that are planned stand in the content, at different paths. -/
theorem leads_of_mem_plannedTasks (hblocks : root.taskBlocks kind = some blocks)
    (commented : CommentTasks) :
    ((plannedTasks (Tree.flattenTasks blocks) commented).map PlannedTask.path).Nodup ∧
      ∀ task ∈ plannedTasks (Tree.flattenTasks blocks) commented,
        ∃ node, root.at? task.path = some node := by
  constructor
  · exact (path_plannedTasks_sublist _ commented).nodup (Tree.nodup_path_flattenTasks hblocks)
  · intro planned hplanned
    obtain ⟨⟨task, comment⟩, hpair, rfl⟩ := List.mem_map.mp hplanned
    have htask := (List.of_mem_zip (List.mem_filter.mp hpair).1).1
    exact ⟨task.node, Tree.at?_of_mem_flattenTasks hblocks task htask⟩

/-- A file without tasks gets its list as a whole. -/
theorem attach_of_isFlat (file : Path) (hflat : kind.isFlat = true) (tree : CommentTree)
    (root : Node) :
    (attachNotices file kind tree root).filter Notice.isMismatch = [] ∧
      Attaches (rootLists tree.comments root) root (attachSkips kind tree root) := by
  rw [attachNotices, attachSkips, if_pos hflat, if_pos hflat]
  exact ⟨Notice.filter_isMismatch_ofComments file tree.comments,
    attaches_attachToRoot tree.comments root⟩

/-- Tasks that disagree somewhere get nothing. -/
theorem attach_of_failsAt (file : Path) (htree : tree.root? = some comments)
    (hblocks : root.taskBlocks kind = some blocks)
    (hcomments : comments.taskBlocks kind = some commentBlocks) {first : Nat}
    (hfirst : FailsAt (Tree.flattenTasks blocks) (Tree.flattenTasks commentBlocks) first)
    (hbefore : ∀ j < first,
      ¬ FailsAt (Tree.flattenTasks blocks) (Tree.flattenTasks commentBlocks) j) :
    attachSkips kind tree root = root ∧
      (attachNotices file kind tree root).filter Notice.isMismatch =
        [.uncorrelated file
          (mismatchAt (Tree.flattenTasks blocks) (Tree.flattenTasks commentBlocks) first)] := by
  obtain ⟨hattach, hnotices⟩ := attach_of_taskBlocks file htree hblocks hcomments
  have hplan := Plan.mismatch_of_failsAt 0 hfirst hbefore
  rw [Nat.zero_add, ← Plan.ofPairs] at hplan
  rw [hattach, hnotices, Plan.filter_isMismatch_notices, Plan.apply, hplan]
  exact ⟨rfl, rfl⟩

/-- Tasks that agree everywhere get their lists. -/
theorem attach_of_agree (file : Path) (htree : tree.root? = some comments)
    (hblocks : root.taskBlocks kind = some blocks)
    (hcomments : comments.taskBlocks kind = some commentBlocks)
    (h : ∀ i, ¬ FailsAt (Tree.flattenTasks blocks) (Tree.flattenTasks commentBlocks) i) :
    (attachNotices file kind tree root).filter Notice.isMismatch = [] ∧
      Attaches
        (listsOf (plannedTasks (Tree.flattenTasks blocks) (Tree.flattenTasks commentBlocks)))
        root (attachSkips kind tree root) := by
  obtain ⟨hattach, hnotices⟩ := attach_of_taskBlocks file htree hblocks hcomments
  have hplan := Plan.ofPairsFrom_of_agree 0 h
  rw [← Plan.ofPairs] at hplan
  obtain ⟨hnodup, hleads⟩ := leads_of_mem_plannedTasks hblocks (Tree.flattenTasks commentBlocks)
  rw [hattach, hnotices, Plan.filter_isMismatch_notices, Plan.apply, hplan]
  exact ⟨rfl, Plan.attaches_attachAll hnodup hleads⟩

end Correlated

/-- Whatever is attached, the content stays. -/
theorem erase_attachSkips (kind : FileKind) (tree : CommentTree) (root : Node) :
    (attachSkips kind tree root).erase = root.erase := by
  rw [attachSkips]
  split
  · exact (attaches_attachToRoot tree.comments root).content
  · split
    · rw [Plan.apply]
      split
      · rfl
      · exact Plan.erase_attachAll _ root
    · rfl

/-- **Lists are attached all together or not at all.**  Take the content of a file and any comments,
those of another text perhaps. Whatever is attached, the content stays. A file without tasks gets
one list at most, at its root or first item. A file with tasks gets nothing if the tasks disagree
somewhere, and one notice names the first position where they do. If they agree everywhere, there is
no such notice, and the lists that were planned are attached, at paths that all lead somewhere, and
nothing else is changed. -/
theorem attach_all_or_nothing (file : Path) (kind : FileKind) (tree : CommentTree) (root : Node) :
    let result := attachSkips kind tree root
    let mismatches := (attachNotices file kind tree root).filter Notice.isMismatch
    result.erase = root.erase ∧
    (kind.isFlat = true →
      mismatches = [] ∧ Attaches (rootLists tree.comments root) root result) ∧
    (kind.isFlat = false → correlate kind root tree.root? = none →
      attachNotices file kind tree root = [] ∧ result = root) ∧
    ∀ comments blocks commentBlocks, tree.root? = some comments →
      root.taskBlocks kind = some blocks → comments.taskBlocks kind = some commentBlocks →
      let tasks := Tree.flattenTasks blocks
      let commented := Tree.flattenTasks commentBlocks
      (∀ i, FailsAt tasks commented i → result = root ∧
        ∃ first ≤ i, FailsAt tasks commented first ∧ (∀ j < first, ¬ FailsAt tasks commented j) ∧
          mismatches = [.uncorrelated file (mismatchAt tasks commented first)]) ∧
      ((∀ i, ¬ FailsAt tasks commented i) →
        mismatches = [] ∧ Attaches (listsOf (plannedTasks tasks commented)) root result) := by
  intro result mismatches
  refine ⟨erase_attachSkips kind tree root,
    fun hflat => attach_of_isFlat file hflat tree root, ?_, ?_⟩
  · intro hflat hcorrelate
    simp [result, attachSkips, attachNotices, hflat, hcorrelate]
  · intro comments blocks commentBlocks htree hblocks hcomments tasks commented
    refine ⟨fun i hi => ?_, attach_of_agree file htree hblocks hcomments⟩
    have hfails : ∃ i, FailsAt tasks commented i := ⟨i, hi⟩
    have hbefore : ∀ j < Nat.find hfails, ¬ FailsAt tasks commented j :=
      fun j => Nat.find_min hfails
    obtain ⟨hresult, hmismatch⟩ :=
      attach_of_failsAt file htree hblocks hcomments (Nat.find_spec hfails) hbefore
    exact ⟨hresult, Nat.find hfails, Nat.find_min' hfails hi, Nat.find_spec hfails, hbefore,
      hmismatch⟩

theorem eq_some_getD {value : Option α} (fallback : α) (h : value.isSome = true) :
    value = some (value.getD fallback) := by
  cases value with
  | none => exact nomatch h
  | some value => rfl

/-- The theorem applies to two lists of tasks that agree in their first task and differ in the name
of the second one: the marker in the first task is not attached either. -/
theorem attach_all_or_nothing_renamed :
    let text := "- name: a\n  ping:  # noqa: fqcn\n- name: b\n"
    let other := "- name: a\n  ping:  # noqa: fqcn\n- name: c\n"
    let events := (Yaml.Event.read text).toOption.getD []
    let others := (Yaml.Event.read other).toOption.getD []
    let root := Node.ofEvents events
    let tree := CommentTree.ofEvents other.toList others
    attachSkips .tasks tree root = root ∧
      (attachNotices ⟨"main.yml"⟩ .tasks tree root).filter Notice.isMismatch =
        [.uncorrelated ⟨"main.yml"⟩ ⟨1, some "b", some "c"⟩] := by
  intro text other events others root tree
  let comments := tree.root?.getD default
  have htree : tree.root? = some comments := eq_some_getD default (by decide +kernel)
  have hblocks := eq_some_getD [] (show (root.taskBlocks .tasks).isSome = true by decide +kernel)
  have hcomments :=
    eq_some_getD [] (show (comments.taskBlocks .tasks).isSome = true by decide +kernel)
  obtain ⟨-, -, -, htasks⟩ := attach_all_or_nothing ⟨"main.yml"⟩ .tasks tree root
  obtain ⟨hfails, -⟩ := htasks _ _ _ htree hblocks hcomments
  obtain ⟨hresult, first, hle, hfirst, -, hmismatch⟩ := hfails 1 (by decide +kernel)
  have hone : first = 1 := by
    cases first with
    | zero => exact absurd hfirst (by decide +kernel)
    | succ first => omega
  subst hone
  refine ⟨hresult, hmismatch.trans ?_⟩
  decide +kernel

end PlaybookLint
