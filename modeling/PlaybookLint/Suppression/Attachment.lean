import PlaybookLint.Node
import PlaybookLint.Notice
import PlaybookLint.Suppression
import PlaybookLint.Task.Flatten

/-!
# Suppression lists

What a marker silences is attached to the content: to the tasks whose comments hold the marker, or,
in a file without tasks, to the root.

## Main definitions

* `Plan` - which tasks get the markers of which comments, or why that cannot be said.
* `Plan.ofPairs` - the plan for a list of paired tasks.
* `Plan.apply` - the tree with the lists of a plan.
* `attachSkips` - the tree of a file with all its lists, and the notices that come up.

## Design notes

A plan is made before anything is attached. If the tasks do not agree somewhere, nothing is attached
at all.
-/

namespace PlaybookLint

/-- A task that is to get the markers of a comment node. -/
structure PlannedTask where
  path : TreePath
  comments : CommentNode
  deriving Inhabited

/-- Which tasks get which markers. -/
structure Plan where
  /-- The tasks that have been planned, in order. -/
  tasks : List PlannedTask
  /-- Where the tasks stopped to agree, if they did. -/
  mismatch : Option Mismatch
  deriving Inhabited

namespace Plan

/-- Where to attach a pair of tasks: nowhere if the task is a string. The tasks have to have the
same name. -/
def ofPair (position : Nat) : TaskPair → Except Mismatch (Option PlannedTask)
  | (some task, comment) =>
    if task.node.isString then .ok none
    else
      let name := task.node.taskName?
      match comment with
      | some comment =>
        if name = comment.node.taskName? then .ok (some ⟨task.path, comment.node⟩)
        else .error ⟨position, name, comment.node.taskName?⟩
      | none => .error ⟨position, name, none⟩
  | (none, comment) => .error ⟨position, none, comment.bind (·.node.taskName?)⟩

/-- The plan for paired tasks, the first of which has position `position`. -/
def ofPairsFrom : (position : Nat) → List TaskPair → Plan
  | _, [] => ⟨[], none⟩
  | position, pair :: pairs =>
    match ofPair position pair with
    | .error mismatch => ⟨[], some mismatch⟩
    | .ok task =>
      let later := ofPairsFrom (position + 1) pairs
      ⟨task.toList ++ later.tasks, later.mismatch⟩

/-- The plan for paired tasks. -/
def ofPairs (pairs : List TaskPair) : Plan :=
  ofPairsFrom 0 pairs

/-- The tree with one list attached. -/
def attach (root : Node) (task : PlannedTask) : Node :=
  root.updateAt (Tree.setNote (some task.comments.subtreeSkips)) task.path

/-- The tree with all lists of the plan attached, or as it was if the tasks do not agree. -/
def apply (plan : Plan) (root : Node) : Node :=
  if plan.mismatch.isSome then root else plan.tasks.foldl attach root

/-- The notices that come up when the plan is made. -/
def notices (file : Path) (plan : Plan) : List Notice :=
  (plan.tasks.flatMap fun task => Notice.ofComments file task.comments.comments) ++
    plan.mismatch.toList.map (Notice.uncorrelated file)

end Plan

/-- The content with a list attached as a whole: at the root if that is a mapping, and at the first
item of a sequence if the list says anything. -/
def attachToRoot (skips : List String) : Node → Node
  | .mapping line _ entries => .mapping line (some skips) entries
  | .sequence line note (first :: items) =>
    if skips.isEmpty then .sequence line note (first :: items)
    else .sequence line note (first.setNote (some skips) :: items)
  | root => root

/-- The content of a file with the suppression lists of its comments. -/
def attachSkips (kind : FileKind) (tree : CommentTree) (root : Node) : Node :=
  if kind.isFlat then attachToRoot (skipsOfComments tree.comments) root
  else
    match correlate kind root tree.root? with
    | some pairs => (Plan.ofPairs pairs).apply root
    | none => root

/-- The notices that come up when suppression lists are attached. -/
def attachNotices (file : Path) (kind : FileKind) (tree : CommentTree) (root : Node) :
    List Notice :=
  if kind.isFlat then Notice.ofComments file tree.comments
  else
    match correlate kind root tree.root? with
    | some pairs => (Plan.ofPairs pairs).notices file
    | none => []

end PlaybookLint
