import PlaybookLint.Comment
import PlaybookLint.FileKind
import PlaybookLint.Node

/-!
# The tasks of a tree

A task list may hold tasks that contain further task lists. Flattening puts all of them into one
sequence, each with the path that leads to it. The content of a file and its comments are two trees,
whose tasks are paired by position.

## Main definitions

* `FlatTask` - a task with its path.
* `Tree.taskBlocks` - the items of the task lists of a file.
* `Tree.flattenAt` - a task and the tasks in it, which come first.
* `Tree.flattenTasks` - the same for several tasks.
* `correlate` - the tasks of two trees in pairs.

## Design notes

Everything but the pairing is said of trees with any notes, so that the tasks of a file and the
tasks of its comments are found by the same definition. A key that occurs twice counts where it
occurs last.
-/

namespace PlaybookLint

/-- The keys of a task under which further task lists stand. -/
def nestedTaskKeys : List String :=
  ["block", "always", "rescue"]

/-- The keys of a play under which task lists stand, in the order in which they are visited. -/
def playSections : List String :=
  ["tasks", "pre_tasks", "post_tasks", "handlers"]

/-- A task with the path that leads to it. -/
structure FlatTask (α : Type) where
  path : TreePath
  node : Tree α
  deriving Repr, Inhabited

namespace Tree

/-- The name of a task, as it is compared. -/
def taskName? (task : Tree α) : Option String :=
  (task.get? "name").map fun
    | .scalar _ _ value => value.text
    | .sequence .. => "<sequence>"
    | .mapping .. => "<mapping>"

/-- Whether a task contains others. -/
def isContainer (task : Tree α) : Bool :=
  nestedTaskKeys.any fun key => (task.get? key).any isTruthy

/-! ### Task lists -/

/-- The items of a list that stands at a path. -/
def indexItems (path : TreePath) (items : List (Tree α)) : List (FlatTask α) :=
  items.zipIdx.map fun (node, i) => ⟨path ++ [.item i], node⟩

/-- The items under a section of the play at a path; `none` if something else than a list stands
there. An empty section holds none. -/
def sectionBlocks (path : TreePath) (play : Tree α) (key : String) :
    Option (List (FlatTask α)) :=
  match play.lookup? key with
  | none => some []
  | some (i, value) =>
    if value.isTruthy then value.items?.map (indexItems (path ++ [.entry i])) else some []

/-- The items of the task lists of the play at a path; `none` if the play is malformed. -/
def playBlocks (path : TreePath) (play : Tree α) : Option (List (FlatTask α)) :=
  if play.isMapping then
    (playSections.mapM (sectionBlocks path play)).map List.flatten
  else none

/-- The items of the task lists of a file: of its root, or of the sections of its plays. `none` if
the file does not have the shape that its kind promises, or its kind promises no tasks. -/
def taskBlocks (kind : FileKind) (root : Tree α) : Option (List (FlatTask α)) :=
  match kind with
  | .tasks | .handlers => root.items?.map (indexItems [])
  | .playbook =>
    root.items?.bind fun plays =>
      ((indexItems [] plays).mapM fun play => playBlocks play.path play.node).map List.flatten
  | _ => none

/-! ### Nested tasks -/

mutual

/-- The task at a path, after the tasks in it; none if it is empty. -/
def flattenAt (path : TreePath) : Tree α → List (FlatTask α)
  | .scalar line note value =>
    if value.isTruthy then [⟨path, .scalar line note value⟩] else []
  | .sequence line note items =>
    if items.isEmpty then [] else [⟨path, .sequence line note items⟩]
  | .mapping line note entries =>
    if entries.isEmpty then []
    else
      (flattenKey path "block" 0 entries).getD [] ++
        (flattenKey path "always" 0 entries).getD [] ++
        (flattenKey path "rescue" 0 entries).getD [] ++
        [⟨path, .mapping line note entries⟩]

/-- The tasks in the list under the last entry with a key, if there is such an entry. Entries are
counted from `index`. -/
def flattenKey (path : TreePath) (key : String) :
    (index : Nat) → List (Tree α × Tree α) → Option (List (FlatTask α))
  | _, [] => none
  | index, (k, value) :: entries =>
    match flattenKey path key (index + 1) entries with
    | some tasks => some tasks
    | none =>
      if k.string? = some key then some (flattenList (path ++ [.entry index]) value) else none

/-- The tasks in a list of tasks; none if the node is no sequence. -/
def flattenList (path : TreePath) : Tree α → List (FlatTask α)
  | .sequence _ _ items => flattenItems path 0 items
  | _ => []

/-- The tasks among the items of a list, counted from `index`. -/
def flattenItems (path : TreePath) : (index : Nat) → List (Tree α) → List (FlatTask α)
  | _, [] => []
  | index, item :: items =>
    flattenAt (path ++ [.item index]) item ++ flattenItems path (index + 1) items

end

/-- The tasks in a list of blocks, nested ones before the task that holds them. -/
def flattenTasks (blocks : List (FlatTask α)) : List (FlatTask α) :=
  blocks.flatMap fun task => task.node.flattenAt task.path

end Tree

/-! ## Tasks and their comments -/

/-- Two lists side by side; the shorter one is filled up with `none`. -/
def zipLongest : List α → List β → List (Option α × Option β)
  | [], bs => bs.map fun b => (none, some b)
  | a :: as, [] => (some a, none) :: zipLongest as []
  | a :: as, b :: bs => (some a, some b) :: zipLongest as bs

/-- A task of a file and the task of its comments at the same position. -/
abbrev TaskPair :=
  Option (FlatTask (Option (List String))) × Option (FlatTask (List Comment))

/-- The tasks of a file and of its comments, by position; `none` if one of the trees has no task
lists. -/
def correlate (kind : FileKind) (content : Node)
    (comments : Option CommentNode) : Option (List TaskPair) := do
  let comments ← comments
  let contentBlocks ← content.taskBlocks kind
  let commentBlocks ← comments.taskBlocks kind
  return zipLongest (Tree.flattenTasks contentBlocks) (Tree.flattenTasks commentBlocks)

end PlaybookLint
