import PlaybookLint.Yaml.Basic
import PlaybookLint.Yaml.Token.Block
import PlaybookLint.Yaml.Token.Plain
import PlaybookLint.Yaml.Token.Quoted
import PlaybookLint.Yaml.Token.Tag

/-!
# From text to tokens

`Token.scan` cuts a text into tokens, or says why it cannot.

## Main definitions

* `Lexer` - the text still to be read, the tokens found, and the context that decides what may come
  next.
* `Lexer.next` - finds at least one more token, or moves on.
* `Token.scan` - all tokens of a text.

## Design notes

* **Indentation.** A block collection is open while lines are indented at least as much as its first
  entry. The open ones are a stack of indentations; a `virtual` one, which closes nothing, asks a
  value to stand at least one column further in than its key.
* **Simple keys.** A token that may be a key is remembered, with its place among the tokens, once
  per open flow collection and once for the block around them. A `:` then puts the key token, and
  the start of the mapping if it is new, at that place. Outside flow collections a key ends on its
  own line, within 1024 characters.
* **Single pairs.** `[a: b]` holds a mapping that nothing opens; its start and end are tokens of
  their own.
-/

namespace PlaybookLint.Yaml

/-- A token that may turn out to be a key. -/
structure KeyCandidate where
  mark : Mark
  /-- How many tokens come before it. -/
  place : Nat
  /-- Whether it still may be a key. -/
  possible : Bool
  /-- Whether nothing but a key may stand there. -/
  required : Bool
  deriving Repr, Inhabited

/-- A column that was given up for a larger one. -/
structure Indent where
  /-- The smaller column. -/
  outer : Int
  /-- Whether the larger one belongs to no collection. -/
  isVirtual : Bool
  deriving Repr, Inhabited

/-- Open flow collections beyond which a text is refused. -/
def maxFlowDepth : Nat := 255

/-- Characters that a simple key may be long. -/
def maxKeyLength : Nat := 1024

/-- A text that has been read in part. -/
structure Lexer where
  cursor : Cursor
  tokens : Array Token
  /-- Whether a key may start here. -/
  keyAllowed : Bool
  /-- Candidates for keys, that of the innermost open flow collection first. -/
  candidates : List KeyCandidate
  /-- Column of the innermost open block collection; negative outside of all. -/
  indent : Int
  /-- Columns given up, latest first. -/
  indents : List Indent
  /-- Number of open flow collections. -/
  flowDepth : Nat
  /-- Whether only blanks stand before this place on its line. -/
  atLineStart : Bool
  /-- Index at which a `:` needs no blank after it, since a quoted or flow key ends there. -/
  adjacentValue : Nat
  /-- Whether a mapping has been opened since the last single pair ended. -/
  mappingOpened : Bool
  /-- For each open flow sequence, innermost first, the depth of the single pair that is open in it.
  -/
  pairs : List (Option Nat)
  deriving Inhabited

namespace Lexer

/-- The beginning of a text; a NUL character ends it. -/
def start (text : List Char) : Lexer where
  cursor := ⟨text.takeWhile (· ≠ '\x00'), Mark.start⟩
  tokens := #[⟨.streamStart, Mark.start⟩]
  keyAllowed := true
  candidates := [⟨⟨0, 0, 0⟩, 0, false, false⟩]
  indent := -1
  indents := []
  flowDepth := 0
  atLineStart := true
  adjacentValue := 0
  mappingOpened := false
  pairs := []

/-- The position of the next character. -/
def mark (l : Lexer) : Mark := l.cursor.mark

/-- The next character. -/
def peek (l : Lexer) : Option Char := l.cursor.peek

/-- The character after the next one. -/
def peekSecond (l : Lexer) : Option Char := (l.cursor.rest.drop 1).head?

/-- Whether a flow collection is open. -/
def inFlow (l : Lexer) : Bool := l.flowDepth > 0

/-- The column of the next character. -/
def column (l : Lexer) : Int := l.mark.column

/-- Stops reading here. -/
def fail (l : Lexer) (problem : Problem) : Except Error α := l.cursor.fail problem

/-- Adds a token. -/
def push (l : Lexer) (kind : TokenKind) (mark : Mark) : Lexer :=
  { l with tokens := l.tokens.push ⟨kind, mark⟩ }

/-- Adds a token before those from `place` on. -/
def insert (l : Lexer) (place : Nat) (kind : TokenKind) (mark : Mark) : Lexer :=
  { l with tokens := l.tokens.insertIdxIfInBounds place ⟨kind, mark⟩ }

/-- Passes `n` characters of a token. -/
def pass (l : Lexer) (n : Nat) : Lexer :=
  { l with cursor := l.cursor.skip n, atLineStart := false }

/-- Passes the blanks and the comment after a token. -/
def passBlanks (l : Lexer) (tabs : Bool := true) : Except Error (Blanks × Lexer) := do
  let (found, cursor) ← skipBlanks tabs l.cursor
  return (found, { l with cursor })

/-! ### Keys -/

/-- Replaces the innermost candidate. -/
def setCandidate (l : Lexer) (f : KeyCandidate → KeyCandidate) : Lexer :=
  match l.candidates with
  | [] => l
  | k :: ks => { l with candidates := f k :: ks }

/-- Remembers that the next token may be a key. -/
def saveKey (l : Lexer) : Lexer :=
  if l.keyAllowed then
    let required := !l.inFlow && l.indent == l.column && l.indents.head?.all fun i => !i.isVirtual
    l.setCandidate fun _ => ⟨l.mark, l.tokens.size, true, required⟩
  else l

/-- Gives up the innermost candidate. -/
def dropKey (l : Lexer) : Except Error Lexer :=
  match l.candidates with
  | [] => .ok l
  | k :: _ =>
    if k.possible && k.required then l.fail .keyWithoutValue
    else .ok (l.setCandidate fun k => { k with possible := false })

/-- Whether a candidate outside flow collections lies too far back. -/
def isStale (l : Lexer) (k : KeyCandidate) : Bool :=
  k.possible && !l.inFlow &&
    (k.mark.line < l.mark.line || k.mark.index + maxKeyLength < l.mark.index)

/-- Gives up the candidates that lie too far back. -/
def dropStaleKeys (l : Lexer) : Except Error Lexer :=
  if l.candidates.any fun k => l.isStale k && k.required then l.fail .keyWithoutValue
  else .ok { l with
    candidates := l.candidates.map fun k => { k with possible := k.possible && !l.isStale k } }

/-! ### Indentation -/

/-- Opens a block collection at `column`, if it is further in than the innermost one. -/
def openBlock (l : Lexer) (column : Nat) (place : Option Nat) (kind : TokenKind) (mark : Mark) :
    Lexer :=
  if l.inFlow then l
  else
    let l :=
      match l.indents with
      | i :: is =>
        if i.isVirtual && decide (l.indent ≤ (column : Int)) then
          { l with indent := i.outer, indents := is }
        else l
      | [] => l
    if l.indent < (column : Int) then
      let l := { l with indents := ⟨l.indent, false⟩ :: l.indents, indent := (column : Int) }
      match place with
      | some n => l.insert n kind mark
      | none => l.push kind mark
    else l

/-- Closes the block collections further in than `column`: `indents` are the columns given up so
far. -/
def closeFrom (column : Int) : List Indent → Lexer → Lexer
  | [], l => l
  | i :: is, l =>
    if l.indent > column then
      let closed := { l with indent := i.outer, indents := is }
      closeFrom column is (if i.isVirtual then closed else closed.push .blockEnd l.mark)
    else l

/-- Closes the block collections further in than `column`. -/
def closeBlocks (l : Lexer) (column : Int) : Lexer :=
  if l.inFlow then l else closeFrom column l.indents l

/-- Asks what follows to stand one column further in than the innermost block collection. -/
def indentValue (l : Lexer) : Lexer :=
  match l.indents with
  | i :: _ =>
    if !l.inFlow && !i.isVirtual then
      { l with indents := ⟨l.indent, true⟩ :: l.indents, indent := l.indent + 1 }
    else l
  | [] => l

/-- Gives up the columns that belong to no collection: `indents` are the columns given up so far. -/
def dropVirtualFrom : List Indent → Lexer → Lexer
  | [], l => l
  | i :: is, l =>
    if i.isVirtual then dropVirtualFrom is { l with indent := i.outer, indents := is } else l

/-- Gives up the columns that belong to no collection. -/
def dropVirtual (l : Lexer) : Lexer :=
  dropVirtualFrom l.indents l

/-! ### The space between tokens -/

/-- Where the reader of the space between tokens stands. -/
inductive SpacePlace where
  | blanks
  | comment
  /-- On a line that a tab indents, which may hold only blanks and a comment. -/
  | blankLine
  deriving Repr, DecidableEq

/-- The space between tokens as far as it has been passed. -/
structure Space where
  mark : Mark
  atLineStart : Bool
  /-- Whether a line break has been passed. -/
  brokeLine : Bool

/-- Passes blanks, comments and line breaks. No tab may stand left of column `tabLimit`, if there is
one. -/
def space (tabLimit : Option Int) :
    SpacePlace → List Char → Space → Except Error (Space × List Char)
  | _, [], s => .ok (s, [])
  | _, '\r' :: '\n' :: cs, s => space tabLimit .blanks cs ⟨s.mark.nextLine 2, true, true⟩
  | place, c :: cs, s =>
    let next := { s with mark := s.mark.advance 1 }
    if isBreak c then
      space tabLimit .blanks cs ⟨s.mark.nextLine 1, true, true⟩
    else
      match place with
      | .comment => space tabLimit .comment cs next
      | .blankLine =>
        if isSpaceOrTab c then space tabLimit .blankLine cs next
        else if c = '#' then space tabLimit .comment cs next
        else .error ⟨s.mark, .tabInIndentation⟩
      | .blanks =>
        if c = '\t' && s.atLineStart &&
            tabLimit.any (fun limit => decide ((s.mark.column : Int) < limit)) then
          space tabLimit .blankLine cs next
        else if isSpaceOrTab c then space tabLimit .blanks cs next
        else if c = '#' then space tabLimit .comment cs next
        else .ok (s, c :: cs)

/-- Passes everything before the next token. -/
def toToken (l : Lexer) : Except Error Lexer := do
  let tabLimit := if l.indents.isEmpty then none else some l.indent
  let (s, rest) ← space tabLimit .blanks l.cursor.rest ⟨l.mark, l.atLineStart, false⟩
  return { l with
    cursor := ⟨rest, s.mark⟩
    atLineStart := s.atLineStart
    keyAllowed := l.keyAllowed || (s.brokeLine && !l.inFlow) }

/-- Passes the space after a `?`, where tabs do not count: `found` says whether there was a blank or
a line break. -/
def keySpace : (inComment found : Bool) → List Char → Space → Option (Space × List Char)
  | _, found, [], s => if found then some (s, []) else none
  | _, _, '\r' :: '\n' :: cs, s => keySpace false true cs ⟨s.mark.nextLine 2, true, true⟩
  | inComment, found, c :: cs, s =>
    let next := { s with mark := s.mark.advance 1 }
    if isBreak c then keySpace false true cs ⟨s.mark.nextLine 1, true, true⟩
    else if inComment then keySpace true found cs next
    else if c = ' ' then keySpace false true cs next
    else if c = '#' then keySpace true found cs next
    else if found then some (s, c :: cs)
    else none

/-! ### Tokens -/

/-- Ends the text. -/
def finish (l : Lexer) : Except Error Lexer := do
  let mark :=
    if l.mark.column = 0 then l.mark else { l.mark with line := l.mark.line + 1, column := 0 }
  let l := { l with cursor := ⟨[], mark⟩ }
  if l.candidates.any fun k => k.required && k.possible then
    l.fail .keyWithoutValue
  let l := l.closeBlocks (-1)
  return l.push .streamEnd mark

/-- Reads a directive. -/
def directive (l : Lexer) : Except Error Lexer := do
  let mark := l.mark
  let l ← (l.closeBlocks (-1)).dropKey
  let (directive, cursor) ← readDirective l.cursor
  let kind := match directive with
    | .version => .versionDirective
    | .tag handle => .tagDirective handle
  return { l.push kind mark with cursor, keyAllowed := false, atLineStart := true }

/-- Reads a document marker. -/
def documentMarker (l : Lexer) (kind : TokenKind) : Except Error Lexer := do
  let l ← (l.closeBlocks (-1)).dropKey
  return { (l.push kind l.mark).pass 3 with keyAllowed := false }

/-- Reads a marker that ends a document; nothing else may stand on its line. -/
def documentEnd (l : Lexer) : Except Error Lexer := do
  let l ← l.documentMarker .documentEnd
  let (_, l) ← l.passBlanks
  if !endsLine l.peek then
    l.fail .trailingContent
  return l

/-- Reads `[` or `{`. -/
def flowStart (l : Lexer) (kind : TokenKind) : Except Error Lexer := do
  let mark := l.mark
  let l := l.saveKey.indentValue
  if maxFlowDepth ≤ l.flowDepth then
    l.fail .nestingTooDeep
  let l := { l.pass 1 with
    candidates := ⟨⟨0, 0, 0⟩, 0, false, false⟩ :: l.candidates
    flowDepth := l.flowDepth + 1
    keyAllowed := true }
  let l :=
    if kind = .flowMappingStart then { l with mappingOpened := true }
    else { l with pairs := none :: l.pairs }
  let (_, l) ← l.passBlanks
  return l.push kind mark

/-- Ends the single pair that is open in the innermost flow sequence, if it was opened at this
depth. -/
def endPair (l : Lexer) : Lexer :=
  match l.pairs with
  | some depth :: ps =>
    if depth = l.flowDepth then
      { l.push .flowMappingEnd l.mark with mappingOpened := false, pairs := none :: ps }
    else l
  | _ => l

/-- Reads `]` or `}`. -/
def flowEnd (l : Lexer) (kind : TokenKind) : Except Error Lexer := do
  if !l.inFlow then
    l.fail .unexpectedToken
  let l ← l.dropKey
  let l := if kind = .flowSequenceEnd then { l.endPair with pairs := l.pairs.drop 1 } else l
  let mark := l.mark
  let l := { l.pass 1 with
    flowDepth := l.flowDepth - 1
    candidates := l.candidates.drop 1
    keyAllowed := false }
  let (_, l) ← l.passBlanks
  let l := if l.inFlow then { l with adjacentValue := l.mark.index } else l
  return l.push kind mark

/-- Reads `,`. -/
def flowEntry (l : Lexer) : Except Error Lexer := do
  let l ← l.dropKey
  let l := { l.endPair with keyAllowed := true }
  let mark := l.mark
  let (_, l) ← (l.pass 1).passBlanks
  return l.push .flowEntry mark

/-- Reads `-`. -/
def blockEntry (l : Lexer) : Except Error Lexer := do
  if l.inFlow || !l.keyAllowed then
    l.fail .misplacedIndicator
  let mark := l.mark
  let l := (l.pass 1).openBlock mark.column none .blockSequenceStart mark
  let (found, l) ← l.passBlanks
  if found.tab && l.peek = some '-' && endsWord l.peekSecond then
    l.fail .tabInIndentation
  let l := if l.peek.any isBreak || startsFlow l.peek then l.indentValue else l
  let l ← l.dropKey
  return { l.push .blockEntry l.mark with keyAllowed := true }

/-- Reads `?`. -/
def explicitKey (l : Lexer) : Except Error Lexer := do
  let mark := l.mark
  if !l.inFlow && !l.keyAllowed then
    l.fail .misplacedIndicator
  let l :=
    if l.inFlow then { l with mappingOpened := true }
    else l.openBlock mark.column none .blockMappingStart mark
  let l ← l.dropKey
  let l := { l.pass 1 with keyAllowed := !l.inFlow }
  match keySpace false false l.cursor.rest ⟨l.mark, false, false⟩ with
  | none => l.fail .tabInIndentation
  | some (s, rest) =>
    if rest.head? = some '\t' then
      l.fail .tabInIndentation
    return { l.push .key mark with
      cursor := ⟨rest, s.mark⟩
      atLineStart := s.atLineStart }

/-- Reads `:`. -/
def value (l : Lexer) : Except Error Lexer := do
  let candidate := l.candidates.head?
  let mark := l.mark
  let isPair := !l.pairs.isEmpty && !l.mappingOpened
  let l := if isPair then { l with pairs := some l.flowDepth :: l.pairs.drop 1 } else l
  let l := l.pass 1
  let l ←
    if l.peek = some '\t' then do
      let (found, l) ← l.passBlanks
      if !found.space && l.peek.any (fun c => c = '-' || isHandleChar c) then
        l.fail .tabInIndentation
      pure l
    else pure l
  match candidate with
  | some ⟨keyMark, place, true, _⟩ =>
    let l := l.insert place .key keyMark
    if isPair && keyMark.line < mark.line then
      .error ⟨mark, .misplacedIndicator⟩
    let l := if isPair then l.insert place .flowMappingStart keyMark else l
    let l := (l.openBlock keyMark.column (some place) .blockMappingStart keyMark).indentValue
    let l := l.setCandidate fun k => { k with possible := false }
    return { l.push .value mark with keyAllowed := false }
  | _ =>
    let l := if isPair then l.push .flowMappingStart mark else l
    if !l.inFlow && !l.keyAllowed then
      .error ⟨mark, .misplacedIndicator⟩
    let l := (l.openBlock mark.column none .blockMappingStart mark).indentValue
    return { l.push .value mark with keyAllowed := !l.inFlow }

/-- Reads `:` inside a flow collection where no blank need follow it. -/
def adjacentFlowValue (l : Lexer) : Except Error Lexer :=
  if l.mark.index ≠ l.adjacentValue && (l.peekSecond = some '[' || l.peekSecond = some '{') then
    l.fail .misplacedIndicator
  else
    l.value

/-- Reads an anchor or an alias. -/
def anchor (l : Lexer) (kind : String → TokenKind) : Except Error Lexer := do
  let mark := l.mark
  let (name, cursor) ← readAnchor l.cursor
  return { l.saveKey.push (kind name) mark with cursor, keyAllowed := false, atLineStart := false }

/-- Reads a tag. -/
def tag (l : Lexer) : Except Error Lexer := do
  let mark := l.mark
  let (handle, cursor) ← readTag l.inFlow l.cursor
  return { l.saveKey.push (.tag handle) mark with
    cursor
    keyAllowed := false
    atLineStart := false }

/-- Reads a block scalar. -/
def blockScalar (l : Lexer) (folded : Bool) : Except Error Lexer := do
  let l := l.saveKey.dropVirtual
  let scalar ← readBlock folded l.indent l.cursor
  let style := if folded then ScalarStyle.folded else ScalarStyle.literal
  return { l.push (.scalar scalar.text style) scalar.mark with
    cursor := scalar.next
    keyAllowed := true
    atLineStart := true }

/-- Reads a quoted scalar. On its last line only a comment, or what may follow a key or an entry,
may come after it. -/
def quotedScalar (l : Lexer) (quote : Quote) : Except Error Lexer := do
  let mark := l.mark
  let l := { l.saveKey with keyAllowed := false }
  let (text, cursor) ← readQuoted quote l.indent l.cursor
  let (_, l) ← passBlanks { l with cursor, atLineStart := false }
  let follows := match l.peek with
    | none => true
    | some ':' => l.inFlow || mark.line = l.mark.line
    | some c => isBreak c || (l.inFlow && (c = ',' || c = '}' || c = ']'))
  if !follows then
    l.fail .trailingContent
  let l ← l.toToken
  let style := match quote with
    | .single => ScalarStyle.singleQuoted
    | .double => ScalarStyle.doubleQuoted
  return { l.push (.scalar text style) mark with adjacentValue := l.mark.index }

/-- Reads a plain scalar. -/
def plainScalar (l : Lexer) : Except Error Lexer := do
  let mark := l.mark
  let l := l.saveKey.dropVirtual
  let scalar ← readPlain l.inFlow (l.indent + 1) l.cursor
  return { l.push (.scalar scalar.text .plain) mark with
    cursor := scalar.next
    keyAllowed := scalar.onNewLine
    atLineStart := scalar.onNewLine }

/-- Reads the token that starts with `c`. -/
def token (l : Lexer) (c : Char) : Except Error Lexer :=
  let standsAlone := endsWord l.peekSecond
  match c with
  | '[' => l.flowStart .flowSequenceStart
  | '{' => l.flowStart .flowMappingStart
  | ']' => l.flowEnd .flowSequenceEnd
  | '}' => l.flowEnd .flowMappingEnd
  | ',' => l.flowEntry
  | '-' => if standsAlone then l.blockEntry else l.plainScalar
  | '?' => if standsAlone then l.explicitKey else l.plainScalar
  | ':' =>
    if standsAlone then l.value
    else if l.inFlow && (startsFlow l.peekSecond || l.mark.index = l.adjacentValue) then
      l.adjacentFlowValue
    else l.plainScalar
  | '*' => l.anchor .alias
  | '&' => l.anchor .anchor
  | '!' => l.tag
  | '|' => if l.inFlow then l.plainScalar else l.blockScalar false
  | '>' => if l.inFlow then l.plainScalar else l.blockScalar true
  | '\'' => l.quotedScalar .single
  | '"' => l.quotedScalar .double
  | c => if c = '%' || c = '@' || c = '`' then l.fail (.unexpectedCharacter c) else l.plainScalar

/-- Finds more tokens; `none` once the text has ended. -/
def next (l : Lexer) : Except Error (Option Lexer × Lexer) := do
  let l ← l.toToken
  let l ← l.dropStaleKeys
  let l := l.closeBlocks l.column
  match l.peek with
  | none => return (none, ← l.finish)
  | some c =>
    let l ←
      if l.column = 0 && c = '%' then l.directive
      else if l.column = 0 && startsWithTriple '-' l.cursor.rest then
        l.documentMarker .documentStart
      else if l.column = 0 && startsWithTriple '.' l.cursor.rest then l.documentEnd
      else if l.column < l.indent then l.fail .badIndentation
      else l.token c
    return (some l, l)

/-- Finds all tokens in at most `steps` steps. -/
def run : (steps : Nat) → Lexer → Except Error (List Token)
  | 0, l => l.fail .unexpectedToken
  | steps + 1, l => do
    match ← l.next with
    | (none, l) => return l.tokens.toList
    | (some l, _) => run steps l

end Lexer

/-- The tokens of a text. Every step but the last passes a character, which bounds the number of
steps. -/
def Token.scan (text : List Char) : Except Error (List Token) :=
  (Lexer.start text).run (text.length + 2)

end PlaybookLint.Yaml
