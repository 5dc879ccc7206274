import PlaybookLint.Text.Basic
import PlaybookLint.Tree
import PlaybookLint.Yaml.Basic
import PlaybookLint.Yaml.Token.Quoted

/-!
# Comments

The comments of a YAML text. A `#` opens a comment at the beginning of a line or after a blank,
unless it stands in a quoted scalar or on a line of the body of a block scalar, where it is content.
Both are found in the source, from the positions of the scalars. A line has at most one comment.

## Main definitions

* `Comment` - a comment; `CommentNode` - a node of a tree that carries comments.
* `quotedRange` - the characters of a quoted scalar, both quotes included.
* `blockBody` - the lines of the body of a block scalar.
* `Mask` - all of these for the scalars of a text.
* `scanComments` - the comments of a text.

## Design notes

A block scalar is reported at the first line of its body, or at its header when it has no body. The
source decides which: a line that could end with a header counts as one. The body then ends at the
first line that is neither blank nor indented as much as its first line.
-/

namespace PlaybookLint

/-- A comment. -/
structure Comment where
  /-- Its line, from one. -/
  line : Nat
  /-- The place of its `#` on the line, counted in characters from one. -/
  column : Nat
  /-- Its text from the `#` on, without blanks at the end. -/
  text : String
  deriving Repr, DecidableEq, Inhabited

/-- A node with the comments that belong to it and to none of its children. -/
abbrev CommentNode := Tree (List Comment)

/-- A line of a text, without the line feed that ends it. -/
abbrev Line := List Char

/-- The lines of a text: the pieces between line feeds. -/
def linesOf (text : String) : List Line :=
  Text.splitAll '\n' text.toList

/-! ## Where no comment can start -/

open Yaml (Event Quote ScalarStyle)

/-- A range of characters of a text, counted from zero; `stop` is the first one after it. -/
structure CharRange where
  start : Nat
  stop : Nat
  deriving Repr, DecidableEq, Inhabited

/-- How many characters of a text after an opening quote belong to the quoted scalar, its closing
quote included; all of them if it is not closed. -/
def quotedLength (quote : Quote) : List Char → Nat
  | [] => 0
  | [_] => 1
  | c :: d :: rest =>
    if quote = .double && c = '\\' then 2 + quotedLength quote rest
    else if quote = .single && c = '\'' && d = '\'' then 2 + quotedLength quote rest
    else if c = quote.char then 1
    else 1 + quotedLength quote (d :: rest)

/-- The opening quote of a scalar that is reported at character `start`: that character, or the last
quote among the five characters before it. -/
def openingQuote? (quote : Quote) (source : List Char) (start : Nat) : Option Nat :=
  if source[start]? = some quote.char then some start
  else (List.range' (start - 5) (min 5 start)).reverse.find? fun i => source[i]? = some quote.char

/-- The range of the quoted scalar whose opening quote is character `start` of the source. -/
def quotedRange (quote : Quote) (source : List Char) (start : Nat) : CharRange :=
  ⟨start, start + 1 + quotedLength quote (source.drop (start + 1))⟩

/-- The number of spaces that a line starts with. -/
def indentOf (line : Line) : Nat :=
  (line.takeWhile (· = ' ')).length

/-- Whether a text after `|` or `>` can be the rest of a header: indicators, blanks, and perhaps a
comment. -/
def isHeaderRest (cs : List Char) : Bool :=
  let rest := Text.trimStart (cs.dropWhile fun c => c.isDigit || c = '+' || c = '-')
  rest.isEmpty || rest.head? = some '#'

/-- Whether a line could end with the header of a block scalar. -/
def endsWithHeader : Line → Bool
  | [] => false
  | c :: cs => ((c = '|' || c = '>') && isHeaderRest cs) || endsWithHeader cs

/-- The numbers of the lines of a body among `lines`, the first of which has number `n`. Until the
first line of the body is found, `required` says which indentations it may have; from then on, which
ones keep a line in the body. Blank lines are left out. -/
def bodyLines (required : Nat → Bool) (found : Bool) : (n : Nat) → List Line → List Nat
  | _, [] => []
  | n, line :: lines =>
    if Text.isBlankText line then bodyLines required found (n + 1) lines
    else
      let indent := indentOf line
      if !required indent then []
      else if found then n :: bodyLines required true (n + 1) lines
      else n :: bodyLines (fun i => decide (indent ≤ i)) true (n + 1) lines

/-- The numbers of the lines, blank ones left out, of the body of a block scalar that is reported on
line `n`. -/
def blockBody (lines : List Line) (n : Nat) : List Nat :=
  match lines[n - 1]?.filter endsWithHeader with
  | some header => bodyLines (fun i => decide (indentOf header < i)) false (n + 1) (lines.drop n)
  | none => bodyLines (fun _ => true) false n (lines.drop (n - 1))

/-- The places of a text where no comment can start. -/
structure Mask where
  /-- The ranges of the quoted scalars, latest first. -/
  quoted : List CharRange
  /-- The lines that belong to the bodies of block scalars. -/
  blockLines : List Nat
  deriving Repr, Inhabited

namespace Mask

/-- Nothing is masked. -/
def empty : Mask := ⟨[], []⟩

/-- The range of the scalar at an event, if it is quoted. -/
def quotedAt? (source : List Char) (event : Event) : Option CharRange :=
  let range (quote : Quote) : Option CharRange :=
    (openingQuote? quote source event.mark.index).map (quotedRange quote source)
  match event.kind with
  | .scalar _ .singleQuoted _ => range .single
  | .scalar _ .doubleQuoted _ => range .double
  | _ => none

/-- The body lines of the scalar at an event, if it is a block scalar. -/
def blockAt (lines : List Line) (event : Event) : List Nat :=
  match event.kind with
  | .scalar _ .literal _ | .scalar _ .folded _ => blockBody lines event.mark.line
  | _ => []

/-- The mask with the scalar at an event added. -/
def cover (source : List Char) (lines : List Line) (event : Event) (mask : Mask) : Mask where
  quoted := (quotedAt? source event).toList ++ mask.quoted
  blockLines := blockAt lines event ++ mask.blockLines

end Mask

/-! ## Finding comments -/

/-- The ranges in the order of their starts. -/
def sortRanges (ranges : List CharRange) : List CharRange :=
  ranges.mergeSort fun a b => decide (a.start ≤ b.start)

/-- Whether a character lies in one of the ranges. They are in order and do not overlap, so that
only the first one that ends after the character can hold it. -/
def isCovered (ranges : List CharRange) (index : Nat) : Bool :=
  (ranges.find? fun r => decide (index < r.stop)).any fun r => decide (r.start ≤ index)

/-- The comment on a line, if there is one: `column` characters of the line have been passed,
`previous` being the last of them, and the next one is character `index` of the text. -/
def commentOn? (covered : Nat → Bool) (line : Nat) :
    (column index : Nat) → (previous : Option Char) → List Char → Option Comment
  | _, _, _, [] => none
  | column, index, previous, c :: cs =>
    if c = '#' && previous.all Text.isBlank && !covered index then
      some ⟨line, column + 1, String.ofList (Text.trimEnd (c :: cs))⟩
    else
      commentOn? covered line (column + 1) (index + 1) (some c) cs

/-- The comments on `lines`, the first of which has number `n` and starts at character `index`. -/
def scanLines (covered : Nat → Bool) (blockLines : List Nat) :
    (n index : Nat) → List Line → List Comment
  | _, _, [] => []
  | n, index, line :: lines =>
    let later := scanLines covered blockLines (n + 1) (index + line.length + 1) lines
    if blockLines.contains n then later
    else (commentOn? covered n 0 index none line).toList ++ later

/-- The comments of a text, in order. -/
def scanComments (lines : List Line) (mask : Mask) : List Comment :=
  scanLines (isCovered (sortRanges mask.quoted.reverse)) mask.blockLines 1 0 lines

end PlaybookLint
