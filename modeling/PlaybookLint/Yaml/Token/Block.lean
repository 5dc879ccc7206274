import PlaybookLint.Yaml.Basic

/-!
# Block scalars

A block scalar starts with a header, `|` for literal or `>` for folded text, and goes on over the
lines that are indented at least as much as its body. The header may fix the indentation and say
what becomes of the line breaks at the end: one is kept unless it says otherwise.
-/

namespace PlaybookLint.Yaml

/-- What becomes of the line breaks at the end of a block scalar. -/
inductive Chomping where
  /-- All are dropped. -/
  | strip
  /-- One is kept. -/
  | clip
  /-- All are kept. -/
  | keep
  deriving Repr, DecidableEq, Inhabited

/-- The header of a block scalar. -/
structure BlockHeader where
  chomping : Chomping
  /-- Indentation of the body relative to the enclosing collection; zero when the header leaves it
  open. -/
  increment : Nat
  deriving Repr, DecidableEq, Inhabited

/-- The chomping that an indicator asks for. -/
def chompingOf : Char → Option Chomping
  | '+' => some .keep
  | '-' => some .strip
  | _ => none

/-- Reads an indentation indicator, a digit other than zero. -/
def readIncrement (c : Cursor) : Except Error (Nat × Cursor) :=
  match c.peek with
  | some '0' => c.fail .badBlockScalar
  | some d => if d.isDigit then .ok (d.toNat - '0'.toNat, c.skip 1) else .ok (0, c)
  | none => .ok (0, c)

/-- Reads what follows the `|` or `>` of a block scalar: the two indicators in any order. -/
def readHeader (c : Cursor) : Except Error (BlockHeader × Cursor) :=
  match c.peek.bind chompingOf with
  | some chomping => do
    let (increment, c) ← readIncrement (c.skip 1)
    return (⟨chomping, increment⟩, c)
  | none => do
    let (increment, after) ← readIncrement c
    if increment = 0 then
      return (⟨.clip, 0⟩, after)
    else
      match after.peek.bind chompingOf with
      | some chomping => return (⟨chomping, increment⟩, after.skip 1)
      | none => return (⟨.clip, increment⟩, after)

/-- The blank lines before the body and the spaces before its first character. -/
structure BlockStart where
  mark : Mark
  /-- Line breaks passed. -/
  breaks : Nat
  /-- The widest indentation of these lines, the first line of the body included. -/
  widest : Nat
  deriving Repr

/-- Passes the blank lines before a body whose indentation is open. -/
def blockStart : List Char → BlockStart → BlockStart × List Char
  | [], s => ({ s with widest := max s.widest s.mark.column }, [])
  | '\r' :: '\n' :: cs, s =>
    blockStart cs ⟨s.mark.nextLine 2, s.breaks + 1, max s.widest s.mark.column⟩
  | c :: cs, s =>
    if c = ' ' then
      blockStart cs { s with mark := s.mark.advance 1 }
    else if isBreak c then
      blockStart cs ⟨s.mark.nextLine 1, s.breaks + 1, max s.widest s.mark.column⟩
    else
      ({ s with widest := max s.widest s.mark.column }, c :: cs)

/-- Passes blank lines, and at most `indent` spaces of the line after them. -/
def blockIndent (indent : Nat) : List Char → BlockStart → BlockStart × List Char
  | [], s => (s, [])
  | '\r' :: '\n' :: cs, s =>
    blockIndent indent cs { s with mark := s.mark.nextLine 2, breaks := s.breaks + 1 }
  | c :: cs, s =>
    if c = ' ' && s.mark.column < indent then
      blockIndent indent cs { s with mark := s.mark.advance 1 }
    else if isBreak c then
      blockIndent indent cs { s with mark := s.mark.nextLine 1, breaks := s.breaks + 1 }
    else
      (s, c :: cs)

/-- The body of a block scalar as far as it has been read. -/
structure BlockText where
  mark : Mark
  /-- The characters read, last first. -/
  text : List Char
  /-- Whether a line of the body has ended since the last character. -/
  lineEnded : Bool
  /-- Blank lines passed since then. -/
  breaks : Nat
  /-- Whether the last line of the body started with a blank. -/
  startedBlank : Bool
  deriving Repr

namespace BlockText

/-- What stands between the last line of the body and the next one, last character first. Folding
joins two lines that both start without a blank. -/
def joint (folded : Bool) (b : BlockText) (startsBlank : Bool) : List Char :=
  let blankLines := List.replicate b.breaks '\n'
  if !b.lineEnded then blankLines
  else if folded && !b.startedBlank && !startsBlank then
    if b.breaks = 0 then [' '] else blankLines
  else
    blankLines ++ ['\n']

end BlockText

/-- Reads the lines of a body that is indented by `indent`; `inLine` says whether a line of it has
begun. -/
def blockText (folded : Bool) (indent : Nat) :
    (inLine : Bool) → List Char → BlockText → BlockText × List Char
  | _, [], b => (b, [])
  | inLine, '\r' :: '\n' :: cs, b =>
    let mark := b.mark.nextLine 2
    if inLine then blockText folded indent false cs { b with mark, lineEnded := true }
    else blockText folded indent false cs { b with mark, breaks := b.breaks + 1 }
  | inLine, c :: cs, b =>
    if isBreak c then
      let mark := b.mark.nextLine 1
      if inLine then blockText folded indent false cs { b with mark, lineEnded := true }
      else blockText folded indent false cs { b with mark, breaks := b.breaks + 1 }
    else if inLine then
      blockText folded indent true cs { b with mark := b.mark.advance 1, text := c :: b.text }
    else if c = ' ' && b.mark.column < indent then
      blockText folded indent false cs { b with mark := b.mark.advance 1 }
    else if b.mark.column ≠ indent || (indent = 0 && startsWithTriple '.' (c :: cs)) then
      (b, c :: cs)
    else
      let startsBlank := isSpaceOrTab c
      let text := c :: (b.joint folded startsBlank ++ b.text)
      blockText folded indent true cs ⟨b.mark.advance 1, text, false, 0, startsBlank⟩

/-- The text of a body that has been read to its end. -/
def BlockText.finish (chomping : Chomping) (indent : Nat) (atEnd : Bool) (b : BlockText) : String :=
  let lastBreak := if b.lineEnded then ['\n'] else []
  let unended := if atEnd && max indent 1 ≤ b.mark.column then ['\n'] else []
  let blankLines := List.replicate b.breaks '\n'
  let tail := match chomping with
    | .strip => []
    | .clip => lastBreak ++ unended
    | .keep => lastBreak ++ unended ++ blankLines
  String.ofList (b.text.reverse ++ tail)

/-- The text of a block scalar whose body is missing because the text ends. -/
def emptyBlockText (chomping : Chomping) (headerEnded : Bool) (breaks : Nat) : String :=
  match chomping with
  | .strip => ""
  | .clip => if headerEnded then "\n" else ""
  | .keep =>
    if !headerEnded then ""
    else if breaks = 0 then "\n"
    else String.ofList (List.replicate breaks '\n')

/-- A block scalar that has been read: its text, its first position, and where reading goes on. -/
structure BlockScalar where
  text : String
  mark : Mark
  next : Cursor

/-- Reads a block scalar from its `|` or `>` inside a collection indented by `parent`. The scalar's
position is that of its first line, or of the header if the text ends before one. -/
def readBlock (folded : Bool) (parent : Int) (c : Cursor) : Except Error BlockScalar := do
  let (header, c') ← readHeader (c.skip 1)
  let (_, c') ← skipBlanks true c'
  if !endsLine c'.peek then
    c.fail .badBlockScalar
  let headerEnded := c'.peek.isSome
  let body := c'.skipBreak
  if body.peek = some '\t' then
    c.fail .badBlockScalar
  let fresh : BlockStart := ⟨body.mark, 0, 0⟩
  let fixed := (max parent 0 + header.increment).toNat
  let (start, rest) :=
    if header.increment = 0 then blockStart body.rest fresh else blockIndent fixed body.rest fresh
  let open' := max start.widest (parent + 1).toNat
  let indent :=
    if header.increment ≠ 0 then fixed else if parent > 0 then max open' 1 else open'
  if rest.isEmpty then
    let headerEnded := headerEnded && start.mark.line ≠ c.mark.line
    return ⟨emptyBlockText header.chomping headerEnded start.breaks, c.mark, ⟨rest, start.mark⟩⟩
  if start.mark.column < indent && decide ((start.mark.column : Int) > parent) then
    .error ⟨start.mark, .badBlockScalar⟩
  let (b, rest) := blockText folded indent false rest ⟨start.mark, [], false, start.breaks, false⟩
  return ⟨b.finish header.chomping indent rest.isEmpty, start.mark, ⟨rest, b.mark⟩⟩

end PlaybookLint.Yaml
