import PlaybookLint.Lint

/-!
# Sessions

A session is a sequence of requests to one running linter. All that one request leaves behind for
the next is the journal, which remembers the outdated identifiers it has heard of.

## Main definitions

* `Request` - what can be asked.
* `Response` - what is answered.
* `Request.perform` - one step of a session.
* `Session.run` - a whole session.
-/

namespace PlaybookLint

/-- What a running linter can be asked. -/
inductive Request where
  /-- Hear of an outdated identifier. -/
  | note (tag : String)
  /-- Say what an identifier on a line of a file is called today. -/
  | normalize (tag : String) (file : Path) (line : Nat)
  /-- Say which identifiers a marker on a line of a file names. -/
  | marker (text : String) (file : Path) (line : Nat)
  /-- Lint the text of a file. -/
  | lint (file : Path) (text : String)
  deriving Repr, DecidableEq, Inhabited

/-- What is answered. -/
inductive Response where
  /-- Whether an outdated identifier is news. -/
  | news (isNews : Bool)
  | name (tag : String)
  | names (tags : List String)
  | findings (findings : List Finding)
  /-- The text is not YAML. -/
  | malformed
  deriving Repr, DecidableEq, Inhabited

namespace Request

/-- The answer to a request, as far as it does not depend on the journal, and the notices that come
up. -/
def answer (rules : List Rule) : Request → Response × List Notice
  | .note _ => (.news false, [])
  | .normalize tag file line => (.name (Tag.normalize tag), (Notice.ofTag? file line tag).toList)
  | .marker text file line =>
    let names := namesAfterMarker text.toList
    (.names (names.map Tag.normalize), names.filterMap (Notice.ofTag? file line))
  | .lint file text =>
    match Document.ofText file none text with
    | .ok (doc, notices) => (.findings (doc.lint rules), notices)
    | .error _ => (.malformed, [])

/-- One step of a session: the answer and the journal after it. -/
def perform (rules : List Rule) (j : Journal) (request : Request) : Response × Journal :=
  match request with
  | .note tag =>
    let (isNews, j) := j.note tag
    (.news isNews, j)
  | request =>
    let (response, notices) := request.answer rules
    (response, j.reportAll notices)

end Request

namespace Session

/-- The answers to a sequence of requests, and the journal after the last one. -/
def run (rules : List Rule) : Journal → List Request → List Response × Journal
  | j, [] => ([], j)
  | j, request :: requests =>
    let (response, j) := request.perform rules j
    let (responses, j) := run rules j requests
    (response :: responses, j)

end Session

end PlaybookLint
