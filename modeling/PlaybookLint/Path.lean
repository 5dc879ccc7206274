import PlaybookLint.Text.Basic

/-!
# Paths

Paths with `/` between their names. A path keeps its spelling, which is how it is shown; whether
two paths are the same, which comes first, and what lies below what are questions about its
components.

## Main definitions

* `Path.components` - the names of a path, without repeated slashes and inner dots.
* `Path.compare` - the order of paths: component by component.
* `Path.stripPrefix?` - the part of a path below another one.
* `Path.join`, `Path.fileName?`, `Path.stem?`, `Path.extension?`, `Path.directories`.
-/

namespace PlaybookLint

/-- A path as it is written. -/
structure Path where
  text : String
  deriving Repr, DecidableEq, Inhabited

/-- A component of a path. -/
inductive Component where
  /-- The `/` that an absolute path begins with. -/
  | root
  /-- The `.` that a relative path may begin with. -/
  | current
  /-- A `..`. -/
  | parent
  | name (text : String)
  deriving Repr, DecidableEq, Inhabited

namespace Component

/-- The component that a segment between slashes stands for. -/
def ofSegment (segment : String) : Component :=
  if segment = ".." then .parent else .name segment

/-- The name of a component that is one. -/
def name? : Component → Option String
  | .name text => some text
  | _ => none

/-- The place of a kind of component in the order of paths. -/
def rank : Component → Nat
  | .root => 0
  | .current => 1
  | .parent => 2
  | .name _ => 3

/-- The order of components: by kind, then by name. -/
def compare (a b : Component) : Ordering :=
  (Ord.compare a.rank b.rank).then (Ord.compare (a.name?.getD "") (b.name?.getD ""))

end Component

namespace Path

/-- The pieces between the slashes of a path. -/
def segments (p : Path) : List String :=
  (Text.splitAll '/' p.text.toList).map String.ofList

/-- A segment that stands for no component: it is empty, or a dot inside a path. -/
def isFiller (segment : String) : Bool :=
  segment = "" || segment = "."

/-- The component at the beginning of a path that no other place can hold, and the segments after
it. -/
def opening : List String → List Component × List String
  | "" :: segment :: rest => ([.root], segment :: rest)
  | "." :: rest => ([.current], rest)
  | segments => ([], segments)

/-- The components of segments that no opening precedes. -/
def bodyComponents (segments : List String) : List Component :=
  (segments.filter fun s => !isFiller s).map Component.ofSegment

/-- The components of a path. -/
def components (p : Path) : List Component :=
  let (first, body) := opening p.segments
  first ++ bodyComponents body

/-- The order of lists of components. -/
def compareComponents : List Component → List Component → Ordering
  | [], [] => .eq
  | [], _ :: _ => .lt
  | _ :: _, [] => .gt
  | a :: as, b :: bs => (a.compare b).then (compareComponents as bs)

/-- The order of paths. -/
def compare (p q : Path) : Ordering :=
  compareComponents p.components q.components

/-- Segments written with slashes between them. -/
def ofSegments (segments : List String) : Path :=
  ⟨"/".intercalate segments⟩

/-- A list without the elements at its end that satisfy `p`. -/
def dropEndWhile (p : α → Bool) (xs : List α) : List α :=
  (xs.reverse.dropWhile p).reverse

/-- The segments after those that the components stand for. -/
def dropComponents : List Component → List String → Option (List String)
  | [], segments => some segments
  | c :: cs, segments =>
    match segments.dropWhile isFiller with
    | [] => none
    | segment :: rest => if Component.ofSegment segment = c then dropComponents cs rest else none

/-- A path with nothing taken away but the slashes and dots at its end. -/
def trimmed (p : Path) : Path :=
  match opening p.segments with
  | ([.root], body) => ⟨"/" ++ (ofSegments (dropEndWhile isFiller body)).text⟩
  | ([.current], body) => ofSegments ("." :: dropEndWhile isFiller body)
  | (_, body) => ofSegments (dropEndWhile isFiller body)

/-- The part of a path below `base`, spelled as in the path; `none` if the path does not lie
there. -/
def stripPrefix? (p base : Path) : Option Path :=
  let (first, body) := opening p.segments
  let below (cs : List Component) : Option Path :=
    (dropComponents cs body).map fun rest =>
      ofSegments (dropEndWhile isFiller (rest.dropWhile isFiller))
  match base.components, first with
  | [], _ => some p.trimmed
  | cs, [] => below cs
  | c :: cs, first => if first = [c] then below cs else none

/-- The part of a path below `base`, or the path itself if it does not lie there. -/
def relativeTo (p base : Path) : Path :=
  (p.stripPrefix? base).getD p

/-- Whether a path begins at the root. -/
def isAbsolute (p : Path) : Bool :=
  p.text.toList.head? = some '/'

/-- The path that `q` names when read from `p`. -/
def join (p q : Path) : Path :=
  if q.isAbsolute || p.text = "" then q
  else if p.text.toList.getLast? = some '/' then ⟨p.text ++ q.text⟩
  else ⟨p.text ++ "/" ++ q.text⟩

/-- The name at the end of a path. -/
def fileName? (p : Path) : Option String :=
  p.components.getLast?.bind Component.name?

/-- A file name cut at its last dot, unless that is its first character: the stem, and the
extension if there is one. -/
def cutName (name : String) : String × Option String :=
  let cs := name.toList
  let extension := Text.afterLast '.' cs
  let stem := cs.take (cs.length - extension.length - 1)
  if '.' ∈ cs ∧ stem ≠ [] then (String.ofList stem, some (String.ofList extension))
  else (name, none)

/-- The name at the end of a path without its extension. -/
def stem? (p : Path) : Option String :=
  p.fileName?.map fun name => (cutName name).1

/-- The extension of the name at the end of a path. -/
def extension? (p : Path) : Option String :=
  p.fileName?.bind fun name => (cutName name).2

/-- The names of the directories that a path leads through, outermost first. -/
def directories (p : Path) : List String :=
  p.components.dropLast.filterMap Component.name?

end Path

end PlaybookLint
