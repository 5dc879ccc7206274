import PlaybookLint.Path

/-!
# File trees

Files in directories, and where paths lead in them. What the linter asks of the machine that it runs
on, and a machine that is a value.

## Main definitions

* `FileTree` - a file, or a directory with entries.
* `FileTree.at?` - what names lead to.
* `FileTree.follow?` - the names that the segments of a path lead along.
* `FileTree.insert` - the tree with one more entry.
* `Host` - the questions to a machine.
* `Disk` - files below a directory; `Disk.host` - the host that answers from them.

## Design notes

A tree says nothing about what its files hold: that is a parameter, so that a tree can be searched
before any file in it is read. Where an entry comes twice, the first one counts.

The questions are answered in some monad, so that one definition of a run serves both a real
machine and a `Disk`, about which theorems can be stated. Nothing is ever changed through a host:
what a command leaves behind is part of its outcome.
-/

namespace PlaybookLint

/-! ## File trees -/

/-- A file, or a directory with the names of its entries. -/
inductive FileTree (α : Type) where
  | file (content : α)
  | directory (entries : List (String × FileTree α))
  deriving Repr

namespace FileTree

instance : Inhabited (FileTree α) := ⟨.directory []⟩

/-- Whether this is a directory. -/
def isDirectory : FileTree α → Bool
  | .directory _ => true
  | .file _ => false

/-- The content of a file. -/
def content? : FileTree α → Option α
  | .file content => some content
  | .directory _ => none

/-- The entries of a directory; a file has none. -/
def entries : FileTree α → List (String × FileTree α)
  | .directory entries => entries
  | .file _ => []

/-- What names lead to, one entry after the other. -/
def at? : FileTree α → List String → Option (FileTree α)
  | t, [] => some t
  | t, name :: names => (t.entries.lookup name).bind fun entry => entry.at? names

/-- The names that segments of a path lead to from the directory that `names` lead to. A segment
that is empty or a dot stays there, and `..` goes back, though not beyond the tree. Only a directory
can be stayed in or left. -/
def follow? (t : FileTree α) (names : List String) : (segments : List String) → Option (List String)
  | [] => some names
  | segment :: segments =>
    if (t.at? names).any isDirectory then
      if segment = "" ∨ segment = "." then t.follow? names segments
      else if segment = ".." then
        if names = [] then none else t.follow? names.dropLast segments
      else if (t.at? (names ++ [segment])).isSome then t.follow? (names ++ [segment]) segments
      else none
    else none

/-- An entry inside directories with these names, outermost first. -/
def nested (entry : FileTree α) (names : List String) : FileTree α :=
  names.foldr (fun name t => .directory [(name, t)]) entry

/-- The tree with an entry at the place that names lead to. Directories on the way are made, and
what is there already stays. -/
def insert : FileTree α → (names : List String) → (entry : FileTree α) → FileTree α
  | .directory entries, name :: names, entry =>
    match entries.lookup name with
    | none => .directory (entries ++ [(name, nested entry names)])
    | some _ => .directory (entries.map fun (other, t) =>
        (other, if other = name then t.insert names entry else t))
  | t, _, _ => t

end FileTree

/-! ## Hosts -/

/-- What is asked of a machine. Paths are read from its working directory. -/
structure Host (m : Type → Type) where
  /-- The path without detours to what a path leads to; `none` if it leads nowhere. -/
  canonical? : Path → m (Option Path)
  /-- The text of the file that a path leads to; `none` if there is none. -/
  readText? : Path → m (Option String)
  /-- What is in the directory that a path leads to, nothing if it cannot be listed. Each file is
  given by the reading of its text. -/
  entries : Path → m (List (String × FileTree (m (Option String))))

/-- Files below a working directory. A file is given by its text, if it is one. -/
structure Disk where
  /-- The path of the working directory. -/
  base : Path
  tree : FileTree (Option String)
  deriving Inhabited

namespace Disk

/-- The segments of a path from the working directory; `none` if it lies elsewhere. -/
def segments? (disk : Disk) (path : Path) : Option (List String) :=
  let base := disk.base.segments
  if base.isPrefixOf path.segments then some (path.segments.drop base.length)
  else if path.isAbsolute then none
  else some path.segments

/-- The names that a path leads along; `none` if it leads nowhere. -/
def names? (disk : Disk) (path : Path) : Option (List String) :=
  (disk.segments? path).bind fun segments => disk.tree.follow? [] segments

/-- What a path leads to. -/
def at? (disk : Disk) (path : Path) : Option (FileTree (Option String)) :=
  (disk.names? path).bind disk.tree.at?

/-- The text of the file that a path leads to. -/
def readText? (disk : Disk) (path : Path) : Option String :=
  ((disk.at? path).bind FileTree.content?).bind id

/-- The path of the working directory, or of what names lead to from there. -/
def pathTo (disk : Disk) (names : List String) : Path :=
  if names = [] then disk.base else disk.base.join (Path.ofSegments names)

/-- The host that answers from a disk. -/
def host (disk : Disk) : Host Id where
  canonical? path := (disk.names? path).map disk.pathTo
  readText? path := disk.readText? path
  entries path := ((disk.at? path).map FileTree.entries).getD []

/-- The disk with a file in its working directory. -/
def write (disk : Disk) (name text : String) : Disk :=
  { disk with tree := disk.tree.insert [name] (.file (some text)) }

end Disk

end PlaybookLint
