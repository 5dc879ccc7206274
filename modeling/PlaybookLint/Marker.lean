import PlaybookLint.Comment
import PlaybookLint.NameSet
import PlaybookLint.Tree

/-!
# Markers

A marker is a comment by which the author silences findings: `# noqa`, followed by the identifiers
of what is to be silenced. A marker without identifiers silences everything on its line. An
identifier is the name of a rule, or a tag such as `var-naming[pattern]` that names one of its
checks. Some identifiers have been renamed, and their old names still stand in comments and
configurations.

## Main definitions

* `Tag.current?` - the current name of an outdated identifier.
* `Tag.normalize` - the current name of any identifier.
* `isMarkerText` - whether a text begins with a marker.
* `namesAfterMarker` - the identifiers as they are written.
* `Comment.skips` - the identifiers under their current names.
* `CommentNode.skips` - what the markers anywhere in a node silence.

## Design notes

Whether a comment is a marker and which identifiers it holds are separate questions. The second one
looks for the first `# noqa` anywhere, so that it can be asked of any text.
-/

namespace PlaybookLint.Tag

/-! ## Identifiers of rules -/

/-- The outdated identifiers, each with its current name. -/
def renamed : List (String × String) := [
  ("102", "no-jinja-when"),
  ("104", "deprecated-bare-vars"),
  ("105", "deprecated-module"),
  ("106", "role-name"),
  ("202", "risky-octal"),
  ("203", "no-tabs"),
  ("205", "playbook-extension"),
  ("206", "jinja[spacing]"),
  ("207", "jinja[invalid]"),
  ("208", "risky-file-permissions"),
  ("301", "no-changed-when"),
  ("302", "no-free-form"),
  ("303", "command-instead-of-module"),
  ("304", "inline-env-var"),
  ("305", "command-instead-of-shell"),
  ("306", "risky-shell-pipe"),
  ("401", "latest[git]"),
  ("402", "latest[hg]"),
  ("403", "package-latest"),
  ("404", "no-relative-paths"),
  ("501", "partial-become"),
  ("502", "name[missing]"),
  ("503", "no-handler"),
  ("504", "deprecated-local-action"),
  ("505", "missing-import"),
  ("601", "literal-compare"),
  ("602", "empty-string-compare"),
  ("701", "meta-no-info"),
  ("702", "meta-no-tags"),
  ("703", "meta-incorrect"),
  ("704", "meta-video-links"),
  ("911", "syntax-check"),
  ("comparison-to-empty-string", "empty-string-compare"),
  ("comparison-to-literal-bool", "literal-compare"),
  ("fqcn-builtins", "fqcn[action-core]"),
  ("git-latest", "latest[git]"),
  ("hg-latest", "latest[hg]"),
  ("unnamed-task", "name[missing]"),
  ("var-spacing", "jinja[spacing]")]

/-- The current name of an outdated identifier; `none` if the identifier is not outdated. -/
def current? (tag : String) : Option String :=
  renamed.lookup tag

/-- The current name of an identifier. -/
def normalize (tag : String) : String :=
  (current? tag).getD tag

end PlaybookLint.Tag

namespace PlaybookLint

/-! ## Markers -/

/-- The characters that a marker begins with. -/
def markerSign : List Char :=
  ['#', ' ', 'n', 'o', 'q', 'a']

/-- Whether a text begins, after blanks, with the sign of a marker that no longer word continues. -/
def isMarkerText (cs : List Char) : Bool :=
  match Text.dropPrefix? markerSign (Text.trimStart cs) with
  | some [] => true
  | some (c :: _) => c = ':' || Text.isBlank c
  | none => false

/-- The identifiers after the first sign of a marker in a text. -/
def namesAfterMarker (cs : List Char) : List String :=
  match Text.cutAt? markerSign cs with
  | some (_, rest) =>
    (Text.words (rest.dropWhile fun c => c = ' ' || c = ':')).map String.ofList
  | none => []

namespace Comment

/-- Whether the comment is a marker. -/
def isMarker (c : Comment) : Bool :=
  isMarkerText c.text.toList

/-- The identifiers in the comment as they are written. -/
def names (c : Comment) : List String :=
  namesAfterMarker c.text.toList

/-- The identifiers in the comment under their current names. -/
def skips (c : Comment) : List String :=
  c.names.map Tag.normalize

end Comment

/-- The identifiers that the markers among some comments name, as a set. -/
def skipsOfComments (comments : List Comment) : List String :=
  NameSet.ofList ((comments.filter Comment.isMarker).flatMap Comment.skips)

@[simp] theorem mem_skipsOfComments {name : String} {comments : List Comment} :
    name ∈ skipsOfComments comments ↔ ∃ c ∈ comments, c.isMarker = true ∧ name ∈ c.skips := by
  simp only [skipsOfComments, NameSet.mem_ofList, List.mem_flatMap, List.mem_filter, and_assoc]

end PlaybookLint
