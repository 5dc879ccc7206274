import PlaybookLint.Config
import PlaybookLint.FileTree
import PlaybookLint.Glob

/-!
# Selections

Which files of a directory are to be linted.

## Main definitions

* `Selection` - the three tests that decide.
* `Selection.select` - the chosen files below a directory, in the order of their paths.
* `Config.selection` - the tests that a configuration describes.

## Design notes

A test looks at the name of an entry and at the names that lead to it, and one of the two is enough.
A directory to be left out is not entered, so that nothing in it is asked for. The other two tests
look at files alone.
-/

namespace PlaybookLint

/-- The tests that decide which files are chosen. -/
structure Selection where
  /-- For directories and files to be left out. -/
  ignores : String → Bool
  /-- For single files to be left out. -/
  ignoresFile : String → Bool
  /-- For files to be chosen. -/
  includes : String → Bool

namespace Selection

/-- Whether a test accepts the last of some names, or all of them as a path. -/
def accepts (test : String → Bool) (names : List String) : Bool :=
  names.getLast?.any test || test ("/".intercalate names)

/-- Whether a file of this name holds YAML. -/
def isYaml (name : String) : Bool :=
  (Path.cutName name).2.any fun extension => extension.toLower = "yml" || extension.toLower = "yaml"

/-- Whether a directory or file is not left out. -/
def enters (s : Selection) (names : List String) : Bool :=
  !accepts s.ignores names

/-- Whether a file that is not left out is chosen. -/
def chooses (s : Selection) (names : List String) : Bool :=
  names.getLast?.any isYaml && !accepts s.ignoresFile names && accepts s.includes names

mutual

/-- The chosen files at and below the place that names lead to. -/
def collectAt (s : Selection) (names : List String) : FileTree α → List (List String × α)
  | .file content => if s.enters names && s.chooses names then [(names, content)] else []
  | .directory entries => if s.enters names then s.collect names entries else []

/-- The chosen files among entries of the directory that `above` leads to. -/
def collect (s : Selection) (above : List String) :
    List (String × FileTree α) → List (List String × α)
  | [] => []
  | (name, t) :: rest => s.collectAt (above ++ [name]) t ++ s.collect above rest

end

/-- Entries are searched one after the other. -/
theorem collect_eq_flatMap (s : Selection) (above : List String)
    (entries : List (String × FileTree α)) :
    s.collect above entries =
      entries.flatMap fun entry => s.collectAt (above ++ [entry.1]) entry.2 := by
  induction entries with
  | nil => rw [collect, List.flatMap_nil]
  | cons entry entries ih => rw [collect, ih, List.flatMap_cons]

/-- Whether some names come first or are the same: name by name, a beginning before the whole. -/
def comesFirst : List String → List String → Bool
  | [], _ => true
  | _ :: _, [] => false
  | a :: as, b :: bs => if a < b then true else if b < a then false else comesFirst as bs

/-- The chosen files of a directory with the names that lead to them, in the order of the names. -/
def select (s : Selection) (t : FileTree α) : List (List String × α) :=
  (s.collect [] t.entries).mergeSort fun a b => comesFirst a.1 b.1

@[simp] theorem mem_select {s : Selection} {t : FileTree α} {chosen : List String × α} :
    chosen ∈ s.select t ↔ chosen ∈ s.collect [] t.entries :=
  (List.mergeSort_perm _ _).mem_iff

end Selection

/-- Whether one of some globs describes a text. Malformed ones describe none. -/
def Glob.anyMatch (globs : List String) : String → Bool :=
  let read := globs.filterMap Glob.read?
  fun text => read.any fun g => g.isMatch text

/-- The tests that a configuration describes. -/
def Config.selection (config : Config) : Selection where
  ignores := Glob.anyMatch config.ignored
  ignoresFile := Glob.anyMatch config.ignoredFiles
  includes := Glob.anyMatch config.included

end PlaybookLint
