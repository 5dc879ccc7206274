import PlaybookLint.Pattern

/-!
# Globs

Wildcard patterns for the names and paths of files. The text of a glob is read first into symbols,
in which escapes and bracketed classes are resolved, then into pieces, in which stars are.

## Main definitions

* `GlobPiece` - the pieces that a glob is made of.
* `Glob.pattern` - the pattern that says the same.
* `Glob.isMatch` - whether a glob describes the whole of a text.
* `Glob.symbols?` - the symbols of a text; `none` if an escape or a class is malformed.
* `Glob.read?` - the glob that a text spells; `none` if it is malformed.

## Design notes

A glob describes bytes: a `?` stands for one byte of a text, and a class for those bytes that the
spellings of its ends consist of. Upper and lower case of the letters `a` to `z` are the same.
Wildcards stand for any bytes, slashes included; only the pieces around a `**` ask where the
slashes are.

A `**` counts as such only where nothing but slashes, the edges of the glob or the edges of an
alternative surround it; elsewhere it is two stars. It takes the slashes around it along. Braces
nest, so the reader keeps the groups that are open.
-/

namespace PlaybookLint

/-! ## Globs -/

/-- A piece of a glob. -/
inductive GlobPiece where
  | literal (c : Char)
  /-- A `?`. -/
  | any
  /-- A `*`. -/
  | anything
  /-- A `**/` at the beginning: any number of directories. -/
  | leading
  /-- A `/**` at the end: something below. -/
  | trailing
  /-- A `/**/`: any number of directories between two others. -/
  | between
  /-- A bracketed class, with the first and the last character of each of its ranges. -/
  | oneOf (negated : Bool) (ranges : List (Char × Char))
  /-- Alternatives in braces. -/
  | alternatives (choices : List (List GlobPiece))
  deriving Repr, Inhabited

/-- A wildcard pattern for a name or a path. -/
structure Glob where
  pieces : List GlobPiece
  deriving Repr, Inhabited

/-- The bytes that spell a text, as characters. -/
def bytesOf (cs : List Char) : List Char :=
  (String.ofList cs).toUTF8.toList.map fun b => Char.ofNat b.toNat

namespace GlobPiece

/-- The patterns of a list one after the other. -/
def inOrder (patterns : List Pattern) : Pattern :=
  patterns.foldr .seq .empty

/-- The byte `/`. -/
def slash : Pattern := .charIn (.single '/')

/-- Any one byte. -/
def anyByte : Pattern := .charIn .anything

/-- Any number of bytes. -/
def anyBytes : Pattern := .repeated anyByte 0 none

/-- One of some bytes, in upper or lower case. -/
def byteIn (cls : CharClass) : Pattern := .charIn (.folded cls)

/-- The byte ranges of a range of characters: where the spellings of its ends take several bytes,
the range runs from the last byte of one to the first byte of the other. -/
def byteRanges (first last : Char) : List (Nat × Nat) :=
  let single (b : Char) : Nat × Nat := (b.toNat, b.toNat)
  if first = last then (bytesOf [first]).map single
  else
    let a := bytesOf [first]
    let b := bytesOf [last]
    a.dropLast.map single ++ [((a.getLastD first).toNat, (b.headD last).toNat)] ++ b.tail.map single

/-- The bytes of a bracketed class. -/
def byteClass (negated : Bool) (ranges : List (Char × Char)) : CharClass :=
  let cls : CharClass := .folded (.ranges (ranges.flatMap fun r => byteRanges r.1 r.2))
  if negated then .complement cls else cls

/-- One of several patterns; nothing at all if there are none. -/
def oneOfPatterns : List Pattern → List Pattern
  | [] => []
  | p :: ps => [ps.foldl .alt p]

mutual

/-- The patterns that a piece stands for, one after the other. -/
def patterns : GlobPiece → List Pattern
  | .literal c => (bytesOf [c]).map fun b => byteIn (.single b)
  | .any => [anyByte]
  | .anything => [anyBytes]
  | .leading => [.alt .empty (.alt slash (.seq anyBytes slash))]
  | .trailing => [.seq slash anyBytes]
  | .between => [.alt slash (.seq slash (.seq anyBytes slash))]
  | .oneOf negated ranges => [.charIn (byteClass negated ranges)]
  | .alternatives choices => oneOfPatterns (choicePatterns choices)

/-- The patterns that some pieces stand for. -/
def patternsOfAll : List GlobPiece → List Pattern
  | [] => []
  | piece :: rest => piece.patterns ++ patternsOfAll rest

/-- The patterns of alternatives. One that stands for nothing is no alternative. -/
def choicePatterns : List (List GlobPiece) → List Pattern
  | [] => []
  | choice :: rest =>
    match patternsOfAll choice with
    | [] => choicePatterns rest
    | patterns => inOrder patterns :: choicePatterns rest

end

end GlobPiece

namespace Glob

/-- The pattern over bytes that says the same as a glob. -/
def pattern (g : Glob) : Pattern :=
  match g.pieces with
  | [.leading] => GlobPiece.anyBytes
  | pieces => GlobPiece.inOrder (GlobPiece.patternsOfAll pieces)

/-- Whether a pattern describes the whole of a text. -/
def describes (p : Pattern) (text : String) : Bool :=
  let bytes := (bytesOf text.toList).toArray
  (p.ends bytes [0]).contains bytes.size

/-- Whether a glob describes the whole of a text. -/
def isMatch (g : Glob) (text : String) : Bool :=
  describes g.pattern text

end Glob

end PlaybookLint

namespace PlaybookLint.Glob

/-! ## Spellings of globs -/

/-- A symbol of a glob. -/
inductive Symbol where
  | char (c : Char)
  /-- A character after a backslash. -/
  | escaped (c : Char)
  | any
  | star
  | oneOf (negated : Bool) (ranges : List (Char × Char))
  | opening
  | closing
  | comma
  deriving Repr, DecidableEq, Inhabited

/-- A bracketed class of which only the beginning is read, the last range first. -/
structure ClassDraft where
  negated : Bool
  ranges : List (Char × Char)
  /-- Whether the last character was a dash that may continue the last range. -/
  isOpen : Bool
  deriving Repr, DecidableEq, Inhabited

namespace ClassDraft

/-- The class before its first range. -/
def start (negated : Bool) : ClassDraft := ⟨negated, [], false⟩

/-- The class with one more character. A range must not run backwards. -/
def add (d : ClassDraft) (c : Char) : Option ClassDraft :=
  match d.ranges, d.isOpen with
  | (first, _) :: rest, true =>
    if c < first then none else some { d with ranges := (first, c) :: rest, isOpen := false }
  | r :: rest, false =>
    if c = '-' then some { d with isOpen := true }
    else some { d with ranges := (c, c) :: r :: rest }
  | [], _ => some { d with ranges := [(c, c)] }

/-- The finished class. A dash at its end stands for itself. -/
def finish (d : ClassDraft) : Symbol :=
  .oneOf d.negated ((if d.isOpen then ('-', '-') :: d.ranges else d.ranges).reverse)

end ClassDraft

/-- The symbol that a character outside of classes stands for. -/
def Symbol.ofChar (c : Char) : Symbol :=
  if c = '?' then .any
  else if c = '*' then .star
  else if c = '\x7b' then .opening
  else if c = '\x7d' then .closing
  else if c = ',' then .comma
  else .char c

/-- The symbols of a text, in or outside of a class. -/
def symbolsFrom : Option ClassDraft → List Char → Option (List Symbol)
  | none, [] => some []
  | some _, [] => none
  | some d, c :: rest =>
    if c = ']' && !d.ranges.isEmpty then (symbolsFrom none rest).map (d.finish :: ·)
    else
      match d.add c with
      | some d => symbolsFrom (some d) rest
      | none => none
  | none, '\\' :: c :: rest => (symbolsFrom none rest).map (.escaped c :: ·)
  | none, ['\\'] => none
  | none, '[' :: '!' :: rest => symbolsFrom (some (.start true)) rest
  | none, '[' :: '^' :: rest => symbolsFrom (some (.start true)) rest
  | none, '[' :: rest => symbolsFrom (some (.start false)) rest
  | none, c :: rest => (symbolsFrom none rest).map (.ofChar c :: ·)

/-- The symbols of a text. -/
def symbols? (text : List Char) : Option (List Symbol) :=
  symbolsFrom none text

/-- The character that a symbol ends with, as far as a star after it takes notice. -/
def Symbol.lastChar? : Symbol → Option Char
  | .char c | .escaped c => some c
  | .opening => some '\x7b'
  | .comma => some ','
  | _ => none

/-- Alternatives of which only the beginning is read, and what precedes them. -/
structure Group where
  /-- The pieces before the group, the last one first. -/
  before : List GlobPiece
  /-- The alternatives read so far, the last one first. -/
  choices : List (List GlobPiece)
  deriving Repr, Inhabited

/-- A glob of which only the beginning is read. -/
structure Draft where
  /-- The groups that are open, the innermost one first. -/
  groups : List Group
  /-- The pieces of the alternative, or of the glob, that is being read, the last one first. -/
  pieces : List GlobPiece
  deriving Repr, Inhabited

namespace Draft

/-- Nothing is read. -/
def empty : Draft := ⟨[], []⟩

/-- One more piece. -/
def push (d : Draft) (piece : GlobPiece) : Draft :=
  { d with pieces := piece :: d.pieces }

/-- A `**` that takes the slash before it along. After another one it adds nothing. -/
def pushRecursive (d : Draft) (piece : GlobPiece) : Draft :=
  match d.pieces with
  | .leading :: _ | .trailing :: _ => d
  | _ :: rest => { d with pieces := piece :: rest }
  | [] => d

/-- The beginning of a group. -/
def openGroup (d : Draft) : Draft :=
  ⟨⟨d.pieces, []⟩ :: d.groups, []⟩

/-- The end of an alternative. Outside of groups a comma stands for itself. -/
def nextChoice (d : Draft) : Draft :=
  match d.groups with
  | [] => d.push (.literal ',')
  | g :: groups => ⟨{ g with choices := d.pieces.reverse :: g.choices } :: groups, []⟩

/-- The end of a group; `none` if none is open. -/
def closeGroup (d : Draft) : Option Draft :=
  match d.groups with
  | [] => none
  | g :: groups =>
    let choices := (d.pieces.reverse :: g.choices).reverse
    some ⟨groups, .alternatives choices :: g.before⟩

/-- The finished glob; `none` if a group is open. -/
def finish (d : Draft) : Option Glob :=
  if d.groups.isEmpty then some ⟨d.pieces.reverse⟩ else none

/-- Whether a `**` after the character `previous` can take what precedes it along. -/
def acceptsRecursive (d : Draft) (previous : Option Char) : Bool :=
  previous = some '/' ||
    (!d.groups.isEmpty && (previous = some ',' || previous = some '\x7b'))

/-- The symbols after a `**` that end an alternative, or the glob. -/
def isEdge (d : Draft) : List Symbol → Bool
  | [] => true
  | .comma :: _ | .closing :: _ => !d.groups.isEmpty
  | _ => false

end Draft

/-- The glob that symbols spell. `previous` is the character before them. -/
def assemble (d : Draft) (previous : Option Char) : List Symbol → Option Glob
  | [] => d.finish
  | .star :: .star :: rest =>
    let twoStars := (d.push .anything).push .anything
    match d.pieces.isEmpty, rest with
    | true, [] => (d.push .leading).finish
    | true, .char '/' :: rest => assemble (d.push .leading) (some '/') rest
    | true, rest => assemble twoStars none rest
    | false, .char '/' :: rest =>
      if d.acceptsRecursive previous then assemble (d.pushRecursive .between) (some '/') rest
      else assemble (twoStars.push (.literal '/')) (some '/') rest
    | false, rest =>
      if d.acceptsRecursive previous && d.isEdge rest then
        assemble (d.pushRecursive .trailing) none rest
      else assemble twoStars none rest
  | symbol :: rest =>
    let previous := symbol.lastChar?
    match symbol with
    | .char c | .escaped c => assemble (d.push (.literal c)) previous rest
    | .any => assemble (d.push .any) previous rest
    | .star => assemble (d.push .anything) previous rest
    | .oneOf negated ranges => assemble (d.push (.oneOf negated ranges)) previous rest
    | .opening => assemble d.openGroup previous rest
    | .comma => assemble d.nextChoice previous rest
    | .closing =>
      match d.closeGroup with
      | some d => assemble d previous rest
      | none => none

/-- The glob that a text spells. -/
def read? (text : String) : Option Glob :=
  (symbols? text.toList).bind (assemble .empty none)

end PlaybookLint.Glob
