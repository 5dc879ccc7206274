import PlaybookLint.Node
import PlaybookLint.Suppression.Attachment
import PlaybookLint.Task

/-!
# Documents

A YAML file ready for the rules: its content with suppression lists attached, and what its markers
silence line by line.

## Main definitions

* `Document.ofText` - the document of a text, and the notices that come up on the way.
* `Document.plays`, `Document.tasks` - what the rules look at.
-/

namespace PlaybookLint

/-- A YAML file ready for the rules. -/
structure Document where
  /-- The path that findings show. -/
  path : Path
  kind : FileKind
  /-- The role that the file belongs to. -/
  role : Option String
  data : Node
  lineSkips : SuppressionMap
  deriving Inhabited

namespace Document

/-- The document of a text that has been read for its content and its comments. `kind` is taken
instead of what the path and the content say. -/
def ofTrees (path : Path) (kind : Option FileKind) (root : Node) (tree : CommentTree) : Document :=
  let kind := kind.getD (FileKind.detect path root)
  { path := path
    kind := kind
    role := roleOf path
    data := attachSkips kind tree root
    lineSkips := tree.lineSkips }

/-- The notices that come up when a document is made. -/
def noticesOfTrees (path : Path) (kind : Option FileKind) (root : Node) (tree : CommentTree) :
    List Notice :=
  let kind := kind.getD (FileKind.detect path root)
  Notice.ofComments path tree.comments ++ attachNotices path kind tree root

/-- The document of a text, and the notices that come up. -/
def ofText (path : Path) (kind : Option FileKind) (text : String) :
    Except Yaml.Error (Document × List Notice) :=
  (Yaml.Event.read text).map fun events =>
    let root := Node.ofEvents events
    let tree := CommentTree.ofEvents text.toList events
    (ofTrees path kind root tree, noticesOfTrees path kind root tree)

/-- The plays of a playbook. -/
def plays (doc : Document) : List Node :=
  match doc.kind with
  | .playbook => doc.data.items.filter Tree.isMapping
  | _ => []

/-- The tasks of a task list, nested ones before the task that holds them. -/
def tasksOfList (isHandler : Bool) (items : List Node) : List Task :=
  (Tree.flattenTasks (Tree.indexItems [] items)).filterMap fun task =>
    Task.ofNode? isHandler task.node

/-- The tasks of a play, section by section. -/
def tasksOfPlay (play : Node) : List Task :=
  playSections.flatMap fun key => tasksOfList (key = "handlers") (play.itemsOf key)

/-- The tasks of the document. -/
def tasks (doc : Document) : List Task :=
  match doc.kind with
  | .tasks => tasksOfList false doc.data.items
  | .handlers => tasksOfList true doc.data.items
  | .playbook => doc.plays.flatMap tasksOfPlay
  | _ => []

end Document

end PlaybookLint
