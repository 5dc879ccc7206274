import PlaybookLint.Yaml.Basic

/-!
# Plain scalars

A plain scalar runs over words, blanks and line breaks until something ends it: `: `, a comment, a
document marker, a line indented too little, or, inside a flow collection, a flow indicator. Blanks
between two words of one line are kept; a single line break reads as a space, and each further one
as a line feed.
-/

namespace PlaybookLint.Yaml

/-- Where the reader of a plain scalar stands. -/
inductive PlainPlace where
  /-- Before the first character. -/
  | start
  /-- Inside a word. -/
  | word
  /-- Among the blanks and line breaks after a word. -/
  | gap
  /-- On a line that a tab indents, which may hold only blanks and a comment. -/
  | blankLine
  /-- In the comment of such a line. -/
  | comment
  deriving Repr, DecidableEq

/-- A plain scalar as far as it has been read. -/
structure PlainText where
  mark : Mark
  /-- The characters read, last first. -/
  text : List Char
  /-- Blanks since the last word, last first, while its line goes on. -/
  blanks : List Char
  /-- Line breaks since the last word. -/
  breaks : Nat
  deriving Repr

namespace PlainText

/-- Passes a line break of `n` characters. -/
def nextLine (p : PlainText) (n : Nat) : PlainText :=
  { p with mark := p.mark.nextLine n, blanks := [], breaks := p.breaks + 1 }

/-- Passes a character that adds nothing. -/
def step (p : PlainText) : PlainText :=
  { p with mark := p.mark.advance 1 }

/-- What the blanks and line breaks before a word read as, last character first. -/
def joint (p : PlainText) : List Char :=
  match p.breaks with
  | 0 => p.blanks
  | 1 => [' ']
  | n + 1 => List.replicate n '\n'

/-- Adds a character of a word, together with what stood before the word. -/
def push (p : PlainText) (c : Char) : PlainText :=
  ⟨p.mark.advance 1, c :: (p.joint ++ p.text), [], 0⟩

end PlainText

/-- Whether `c`, followed by `next`, may stand in a plain scalar. -/
def isPlainChar (inFlow : Bool) (c : Char) (next : Option Char) : Bool :=
  if c = ':' && (endsWord next || (inFlow && startsFlow next)) then false
  else !(inFlow && isFlowIndicator c)

/-- Reads on in a plain scalar whose lines must be indented by at least `indent`. -/
def plainText (inFlow : Bool) (indent : Int) :
    PlainPlace → List Char → PlainText → Except Error (PlainText × List Char)
  | _, [], p => .ok (p, [])
  | _, '\r' :: '\n' :: cs, p => plainText inFlow indent .gap cs (p.nextLine 2)
  | place, c :: cs, p =>
    if isBreak c then
      plainText inFlow indent .gap cs (p.nextLine 1)
    else
      match place with
      | .comment => plainText inFlow indent .comment cs p.step
      | .blankLine =>
        if isSpaceOrTab c then plainText inFlow indent .blankLine cs p.step
        else if c = '#' then plainText inFlow indent .comment cs p.step
        else .error ⟨p.mark, .tabInIndentation⟩
      | .word =>
        if isSpaceOrTab c then
          plainText inFlow indent .gap cs { p.step with blanks := [c] }
        else if isPlainChar inFlow c cs.head? then
          plainText inFlow indent .word cs (p.push c)
        else
          .ok (p, c :: cs)
      | _ =>
        if isSpaceOrTab c then
          if p.breaks = 0 then
            plainText inFlow indent .gap cs { p.step with blanks := c :: p.blanks }
          else if c = '\t' && decide ((p.mark.column : Int) < indent) then
            plainText inFlow indent .blankLine cs p.step
          else
            plainText inFlow indent .gap cs p.step
        else if place = .gap && !inFlow && decide ((p.mark.column : Int) < indent) then
          .ok (p, c :: cs)
        else if (p.mark.column = 0 && startsWithDocumentMarker (c :: cs)) || c = '#' then
          .ok (p, c :: cs)
        else if inFlow && c = '-' && startsFlow cs.head? then
          .error ⟨p.mark, .badPlainScalar⟩
        else if isPlainChar inFlow c cs.head? then
          plainText inFlow indent .word cs (p.push c)
        else
          .ok (p, c :: cs)

/-- A scalar that has been read, and where reading goes on. -/
structure PlainScalar where
  text : String
  next : Cursor
  /-- Whether the scalar was ended on a later line than its last word. -/
  onNewLine : Bool

/-- Reads a plain scalar. -/
def readPlain (inFlow : Bool) (indent : Int) (c : Cursor) : Except Error PlainScalar := do
  if inFlow && decide ((c.mark.column : Int) < indent) then
    c.fail .badIndentation
  let (p, rest) ← plainText inFlow indent .start c.rest ⟨c.mark, [], [], 0⟩
  if p.text.isEmpty then
    c.fail .badPlainScalar
  return ⟨String.ofList p.text.reverse, ⟨rest, p.mark⟩, decide (p.breaks > 0)⟩

end PlaybookLint.Yaml
