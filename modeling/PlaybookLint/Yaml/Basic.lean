import PlaybookLint.Text.Number

/-!
# Positions, errors, tokens and events of the YAML reader

A text is read as a list of characters. A position counts them from zero, counts lines from one, and
counts columns from zero; a line ends at a line feed, at a carriage return, or at both together.

The characters are read as tokens and the tokens as events. Block collections have no closing
character, so their ends are tokens of their own, found from indentation; a simple key is known only
at its `:`, so its token stands before tokens read earlier. Events are a text as a flat list:
scalars and aliases, and the beginnings and ends of collections, documents and the whole stream.
Anchors are numbers, counted from one over the whole stream; zero means that a node has none.

## Main definitions

* `Mark` - a position in a text.
* `ScalarStyle` - how a scalar is written.
* `Problem`, `Error` - why a text is not YAML, and where that shows.
* `endsWord` - the characters that end a token: a blank, a line break, or the end of the text.
* `Event`, `Token` - what is read.

## Design notes

The kind of a problem and its place are kept. The words in which a reader of YAML would tell them
are left out, here and in all messages.
-/

namespace PlaybookLint.Yaml

/-- A position in a text. -/
structure Mark where
  /-- Characters before the position. -/
  index : Nat
  /-- Line of the position, from one. -/
  line : Nat
  /-- Characters before the position on its line. -/
  column : Nat
  deriving Repr, DecidableEq, Inhabited

namespace Mark

/-- The beginning of a text. -/
def start : Mark := ⟨0, 1, 0⟩

/-- The position `n` characters further on the same line. -/
def advance (m : Mark) (n : Nat) : Mark :=
  { m with index := m.index + n, column := m.column + n }

/-- The beginning of the next line, past a line break of `n` characters. -/
def nextLine (m : Mark) (n : Nat) : Mark :=
  ⟨m.index + n, m.line + 1, 0⟩

end Mark

/-- How a scalar is written. -/
inductive ScalarStyle where
  | plain
  | singleQuoted
  | doubleQuoted
  | literal
  | folded
  deriving Repr, DecidableEq, Inhabited

/-- Why a text is not YAML. -/
inductive Problem where
  /-- A tab stands where only spaces may indent. -/
  | tabInIndentation
  /-- A `#` follows a token without a blank between them. -/
  | commentWithoutBlank
  /-- A token is indented less than the collection it stands in. -/
  | badIndentation
  /-- A character that starts no token. -/
  | unexpectedCharacter (c : Char)
  /-- More text follows an end-of-document marker or a quoted scalar on its line. -/
  | trailingContent
  /-- A directive that is not written as directives are. -/
  | badDirective
  /-- A tag that is not written as tags are. -/
  | badTag
  /-- A tag uses a handle that no directive declares. -/
  | undeclaredTagHandle (handle : String)
  /-- An anchor or alias without a name. -/
  | emptyAnchor
  /-- A quoted scalar that is not closed. -/
  | unclosedQuote
  /-- An escape sequence that stands for no character. -/
  | badEscape
  /-- A block scalar with a wrong header or a wrong first line. -/
  | badBlockScalar
  /-- A plain scalar that cannot start as it does. -/
  | badPlainScalar
  /-- A key without its `:`. -/
  | keyWithoutValue
  /-- An entry, key or value that may not start where it stands. -/
  | misplacedIndicator
  /-- Flow collections nested too deeply. -/
  | nestingTooDeep
  /-- An alias names no anchor of its document. -/
  | unknownAnchor (name : String)
  /-- A token that may not stand where it does. -/
  | unexpectedToken
  deriving Repr, DecidableEq, Inhabited

/-- A place at which a text stops being YAML, and why. -/
structure Error where
  mark : Mark
  problem : Problem
  deriving Repr, DecidableEq, Inhabited

/-- A character that ends a line. -/
def isBreak (c : Char) : Bool :=
  c == '\n' || c == '\r'

/-- A space or a tab: the only blanks of YAML. -/
def isSpaceOrTab (c : Char) : Bool :=
  c == ' ' || c == '\t'

/-- A character that separates or closes flow collections. -/
def isFlowIndicator (c : Char) : Bool :=
  c == ',' || c == '[' || c == ']' || c == '{' || c == '}'

/-- Whether the next character, if there is one, ends the line. -/
def endsLine : Option Char → Bool
  | none => true
  | some c => isBreak c

/-- Whether the next character, if there is one, is a blank or ends the line. -/
def endsWord : Option Char → Bool
  | none => true
  | some c => isSpaceOrTab c || isBreak c

/-- Whether the next character is a flow indicator. -/
def startsFlow (next : Option Char) : Bool :=
  next.any isFlowIndicator

/-- A letter, a digit, `_` or `-`: the characters of a directive's name and of a tag handle. -/
def isHandleChar (c : Char) : Bool :=
  c.isAlphanum || c == '_' || c == '-'

/-- Whether the text begins with three `mark` characters that stand alone. -/
def startsWithTriple (mark : Char) : List Char → Bool
  | a :: b :: c :: rest => a == mark && b == mark && c == mark && endsWord rest.head?
  | _ => false

/-- Whether the text begins with a document marker, `---` or `...`. -/
def startsWithDocumentMarker (cs : List Char) : Bool :=
  startsWithTriple '-' cs || startsWithTriple '.' cs

/-- The text still to be read, and where it starts. -/
structure Cursor where
  rest : List Char
  mark : Mark
  deriving Repr, Inhabited

namespace Cursor

/-- The next character. -/
def peek (c : Cursor) : Option Char :=
  c.rest.head?

/-- Passes `n` characters of the current line. -/
def skip (c : Cursor) (n : Nat) : Cursor :=
  ⟨c.rest.drop n, c.mark.advance n⟩

/-- The longest run of characters that satisfy `p`, none of them a line break, and what follows it.
-/
def takeWhile (c : Cursor) (p : Char → Bool) : List Char × Cursor :=
  let (taken, rest) := c.rest.span p
  (taken, ⟨rest, c.mark.advance taken.length⟩)

/-- Passes a line break, if the text goes on with one. -/
def skipBreak (c : Cursor) : Cursor :=
  match c.rest with
  | '\r' :: '\n' :: rest => ⟨rest, c.mark.nextLine 2⟩
  | ch :: rest => if isBreak ch then ⟨rest, c.mark.nextLine 1⟩ else c
  | [] => c

/-- Stops reading here. -/
def fail (c : Cursor) (problem : Problem) : Except Error α :=
  .error ⟨c.mark, problem⟩

end Cursor

/-- The blanks that were found between a token and the end of its line. -/
structure Blanks where
  space : Bool
  tab : Bool
  deriving Repr, DecidableEq, Inhabited

/-- Passes the blanks after a token, and a comment if one follows them; tabs count as blanks only if
`tabs`. -/
def skipBlanks (tabs : Bool) (c : Cursor) : Except Error (Blanks × Cursor) :=
  let (blanks, after) := c.takeWhile fun ch => ch == ' ' || (tabs && ch == '\t')
  let found : Blanks := ⟨blanks.contains ' ', blanks.contains '\t'⟩
  if after.peek = some '#' then
    if blanks.isEmpty then
      after.fail .commentWithoutBlank
    else
      .ok (found, (after.takeWhile fun ch => !isBreak ch).2)
  else
    .ok (found, after)

/-! ## Events -/

/-- What an event is. -/
inductive EventKind where
  | streamStart
  | streamEnd
  | documentStart
  | documentEnd
  | scalar (text : String) (style : ScalarStyle) (anchor : Nat)
  | sequenceStart (anchor : Nat)
  | sequenceEnd
  | mappingStart (anchor : Nat)
  | mappingEnd
  /-- A copy of the node with this anchor. -/
  | alias (anchor : Nat)
  deriving Repr, DecidableEq, Inhabited

/-- An event and where it shows in the text. -/
structure Event where
  kind : EventKind
  mark : Mark
  deriving Repr, DecidableEq, Inhabited

/-! ## Tokens -/

/-- What a token is. -/
inductive TokenKind where
  | streamStart
  | streamEnd
  /-- `%YAML`. -/
  | versionDirective
  /-- `%TAG`, which declares a handle, or an unknown directive, which declares the empty one. -/
  | tagDirective (handle : String)
  | documentStart
  | documentEnd
  | blockSequenceStart
  | blockMappingStart
  | blockEnd
  | flowSequenceStart
  | flowSequenceEnd
  | flowMappingStart
  | flowMappingEnd
  | blockEntry
  | flowEntry
  | key
  | value
  | alias (name : String)
  | anchor (name : String)
  | tag (handle : String)
  | scalar (text : String) (style : ScalarStyle)
  deriving Repr, DecidableEq, Inhabited

/-- A token and where it starts. -/
structure Token where
  kind : TokenKind
  mark : Mark
  deriving Repr, DecidableEq, Inhabited

end PlaybookLint.Yaml
