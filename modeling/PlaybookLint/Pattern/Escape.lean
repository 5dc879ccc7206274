import PlaybookLint.Pattern
import PlaybookLint.Text.Basic
import PlaybookLint.Text.Number

/-!
# Escapes and classes of patterns

The parts of the written form of a pattern that stand for one character or for one condition on a
place: escapes, and the classes between brackets.

## Main definitions

* `PatternFlags` - how the text of a pattern is to be read from some place on.
* `Atom` - what an escape stands for.
* `readEscape?` - reads what follows a backslash.
* `readClass?` - reads what follows an opening bracket.

## Design notes

A reader takes the rest of the text and answers with what it has read and with the rest after that,
or with `none` if the text is malformed. In verbose mode blanks and comments between the parts of a
pattern are skipped.
-/

namespace PlaybookLint

/-- How the text of a pattern is to be read from some place on. -/
structure PatternFlags where
  /-- Letters stand for both of their cases. -/
  ignoreCase : Bool
  /-- `^` and `$` stand for the ends of lines. -/
  multiLine : Bool
  /-- A dot stands for line feeds too. -/
  dotAll : Bool
  /-- Lines may end with carriage returns. -/
  anyLineEnds : Bool
  /-- Classes hold characters outside ASCII. -/
  unicode : Bool
  /-- Blanks and comments are skipped. -/
  verbose : Bool
  deriving Repr, DecidableEq, Inhabited

/-- The flags at the beginning of a pattern. -/
def PatternFlags.initial : PatternFlags :=
  ⟨false, false, false, false, true, false⟩

/-- What an escape, or a character by itself, stands for. -/
inductive Atom where
  /-- One character; `isByte` if it is spelled as a byte. -/
  | literal (c : Char) (isByte : Bool)
  /-- A class that already has the case variants it is to have. -/
  | cls (cls : CharClass)
  | look (l : Look)
  deriving Repr, Inhabited

namespace PatternText

/-! ### Skipping -/

/-- The text without the blanks and comments that it begins with, given that it begins inside a
comment if `inComment`. -/
def skipVerbose : (inComment : Bool) → List Char → List Char
  | _, [] => []
  | true, c :: cs => skipVerbose (c ≠ '\n') cs
  | false, c :: cs =>
    if Text.isBlank c then skipVerbose false cs
    else if c = '#' then skipVerbose true cs
    else c :: cs

/-- The text without what is to be skipped at its beginning. -/
def skip (flags : PatternFlags) (cs : List Char) : List Char :=
  if flags.verbose then skipVerbose false cs else cs

/-- The text after its first character and what is to be skipped after that. -/
def advance (flags : PatternFlags) (cs : List Char) : List Char :=
  skip flags (cs.drop 1)

/-! ### Numbers -/

/-- The digits that a text begins with, and the rest after the last one; `fuel` bounds their
number. -/
def readDigits (flags : PatternFlags) (isDigit : Char → Bool) :
    (fuel : Nat) → List Char → List Char × List Char
  | fuel + 1, c :: cs =>
    if isDigit c then
      let (digits, rest) := readDigits flags isDigit fuel (skip flags cs)
      (c :: digits, rest)
    else ([], c :: cs)
  | _, cs => ([], cs)

/-- Reads exactly `n` hexadecimal digits. -/
def readHexDigits? (flags : PatternFlags) (n : Nat) (cs : List Char) :
    Option (Nat × List Char) :=
  let (digits, rest) := readDigits flags Text.isHexDigit n cs
  if digits.length = n then some (Text.hexNumber digits, rest) else none

/-- Reads a character spelled by its number, after the letter that says so: a fixed count of
hexadecimal digits, or any count between braces. -/
def readNumbered? (flags : PatternFlags) (count : Nat) (cs : List Char) :
    Option (Atom × List Char) :=
  match skip flags cs with
  | [] => none
  | '\x7b' :: rest =>
    let (digits, rest) := readDigits flags Text.isHexDigit rest.length (skip flags rest)
    match rest with
    | '\x7d' :: rest =>
      if digits.isEmpty then none
      else (Text.charOfCode? (Text.hexNumber digits)).map fun c => (.literal c false, rest)
    | _ => none
  | rest => do
    let (n, rest) ← readHexDigits? flags count rest
    let c ← Text.charOfCode? n
    return (.literal c (count = 2), rest)

/-! ### Properties -/

/-- The class of the characters of some ranges, as it is meant under the flags. -/
def classOf (flags : PatternFlags) (negated : Bool) (ranges : List (Nat × Nat)) : CharClass :=
  let plain := CharClass.ranges ranges
  let folded := if flags.ignoreCase then .folded plain else plain
  if negated then .complement folded else folded

/-- The text before the first occurrence of one of two signs of comparison, whether that sign
negates, and the text after it. -/
def cutProperty? (name : List Char) : Option (List Char × Bool × List Char) :=
  match Text.cutAt? ['!', '='] name with
  | some (before, after) => some (before, true, after)
  | none =>
    match Text.splitOnce (· = ':') name with
    | some (before, after) => some (before, false, after)
    | none => (Text.splitOnce (· = '=') name).map fun (before, after) => (before, false, after)

/-- The class of a property given by its name, or by a name and a value. -/
def propertyClass? (flags : PatternFlags) (negated : Bool) (name : List Char) :
    Option CharClass :=
  if !flags.unicode then none
  else
    match cutProperty? name with
    | some (before, differs, after) =>
      (CharProperty.findValue? before after).map (classOf flags (negated != differs))
    | none => (CharProperty.find? name).map (classOf flags negated)

/-- Reads the name of a property, after the letter that announces it. -/
def readProperty? (flags : PatternFlags) (negated : Bool) (cs : List Char) :
    Option (Atom × List Char) :=
  match skip flags cs with
  | [] => none
  | '\x7b' :: rest =>
    let (name, rest) := readDigits flags (· ≠ '\x7d') rest.length (skip flags rest)
    match rest with
    | [] => none
    | _ :: rest => (propertyClass? flags negated name).map fun cls => (.cls cls, rest)
  | c :: rest =>
    if c = '\\' then none
    else (propertyClass? flags negated [c]).map fun cls => (.cls cls, skip flags rest)

/-! ### Escapes -/

/-- The characters with a meaning of their own somewhere in a pattern. -/
def metaCharacters : List Char :=
  ['\\', '.', '+', '*', '?', '(', ')', '|', '[', ']', '\x7b', '\x7d', '^', '$', '#', '&', '-', '~']

/-- Whether a character that has no meaning after a backslash may stand there for itself. -/
def isEscapable (c : Char) : Bool :=
  metaCharacters.contains c ||
    (decide (c.toNat < 128) && !(c.isAlphanum || c = '<' || c = '>'))

/-- The characters that are spelled by a letter after a backslash. -/
def letterEscapes : List (Char × Char) :=
  [('a', '\x07'), ('f', '\x0c'), ('t', '\t'), ('n', '\n'), ('r', '\r'), ('v', '\x0b')]

/-- The conditions that are spelled by a character after a backslash. -/
def lookEscapes : List (Char × Look) :=
  [('A', .textStart), ('z', .textEnd), ('B', .notWordEdge), ('<', .wordStart), ('>', .wordEnd)]

/-- The conditions on words that are spelled by a name between braces after `\b`. -/
def wordLooks : List (String × Look) :=
  [("start", .wordStart), ("end", .wordEnd), ("start-half", .wordStartHalf),
    ("end-half", .wordEndHalf)]

/-- Whether a character can stand in the name of a condition on words. -/
def isWordLookChar (c : Char) : Bool :=
  c.isAlpha || c = '-'

/-- Reads what follows `\b`: a name between braces if the braces hold one, and otherwise nothing,
since the braces are then a repetition. -/
def readWordLook? (flags : PatternFlags) (cs : List Char) : Option (Atom × List Char) :=
  match cs with
  | '\x7b' :: inside =>
    match skip flags inside with
    | [] => none
    | c :: rest =>
      if !isWordLookChar c then some (.look .wordEdge, cs)
      else
        let (name, rest) := readDigits flags isWordLookChar (rest.length + 1) (c :: rest)
        match rest with
        | '\x7d' :: rest =>
          (wordLooks.lookup (String.ofList name)).map fun l => (.look l, rest)
        | _ => none
  | _ => some (.look .wordEdge, cs)

/-- A class of single-letter escapes. -/
def letterClass (flags : PatternFlags) (cls : CharClass) (negated : Bool) : Option Atom :=
  if negated then if flags.unicode then some (.cls (.complement cls)) else none
  else some (.cls cls)

/-- Reads what follows a backslash. -/
def readEscape? (flags : PatternFlags) : List Char → Option (Atom × List Char)
  | [] => none
  | c :: cs =>
    match c with
    | 'x' => readNumbered? flags 2 cs
    | 'u' => readNumbered? flags 4 cs
    | 'U' => readNumbered? flags 8 cs
    | 'p' => readProperty? flags false cs
    | 'P' => readProperty? flags true cs
    | 'd' | 'D' => (letterClass flags .digits (c = 'D')).map (·, cs)
    | 's' | 'S' => (letterClass flags .blanks (c = 'S')).map (·, cs)
    | 'w' | 'W' => (letterClass flags .wordChars (c = 'W')).map (·, cs)
    | 'b' => readWordLook? flags cs
    | c =>
      if isEscapable c then some (.literal c false, cs)
      else
        (letterEscapes.lookup c).map (fun d => (.literal d false, cs)) <|>
          (lookEscapes.lookup c).map fun l => (.look l, cs)

/-! ### Classes -/

/-- The signs between the operands of a class. -/
inductive ClassOp where
  | inter
  | diff
  | symmDiff
  deriving Repr, DecidableEq, Inhabited

/-- The class with the case variants that the flags ask for. -/
def fold (flags : PatternFlags) (cls : CharClass) : CharClass :=
  if flags.ignoreCase then .folded cls else cls

/-- The class of an operand, after what stands before it. -/
def applyOp (flags : PatternFlags) (left : Option (ClassOp × CharClass)) (right : CharClass) :
    CharClass :=
  match left with
  | none => right
  | some (.inter, left) => .inter (fold flags left) (fold flags right)
  | some (.diff, left) => .diff (fold flags left) (fold flags right)
  | some (.symmDiff, left) => .symmDiff (fold flags left) (fold flags right)

/-- The class between two brackets. Without Unicode it may hold only characters of ASCII. -/
def closeClass? (flags : PatternFlags) (negated : Bool) (body : CharClass) : Option CharClass :=
  let folded := fold flags body
  let cls := if negated then .complement folded else folded
  if !flags.unicode && cls.contains '\x80' then none else some cls

/-- The character of an atom that can be an end of a range. -/
def literalOf? (flags : PatternFlags) : Atom → Option Char
  | .literal c _ => if !flags.unicode && c.toNat ≥ 128 then none else some c
  | _ => none

/-- The class of an atom that can be an item of a class. -/
def itemClass? (flags : PatternFlags) : Atom → Option CharClass
  | .cls cls => some cls
  | atom => (literalOf? flags atom).map .single

/-- Reads one end of a range. -/
def readClassAtom? (flags : PatternFlags) : List Char → Option (Atom × List Char)
  | [] => none
  | '\\' :: cs => readEscape? flags cs
  | c :: cs => some (.literal c false, cs)

/-- Reads a character, a range or an escaped class in a class. A dash before the closing bracket, or
before another dash, makes no range. -/
def readItem? (flags : PatternFlags) (cs : List Char) : Option (CharClass × List Char) := do
  let (first, rest) ← readClassAtom? flags cs
  match skip flags rest with
  | [] => none
  | '-' :: after =>
    let ahead := (skip flags after).head?
    if ahead = some ']' || ahead = some '-' then
      return (← itemClass? flags first, '-' :: after)
    else
      let (last, rest) ← readClassAtom? flags (skip flags after)
      let a ← literalOf? flags first
      let b ← literalOf? flags last
      if a ≤ b then return (.range a b, rest) else none
  | rest => return (← itemClass? flags first, rest)

/-- Reads a named class after its opening bracket. -/
def readNamedClass? (cs : List Char) : Option (CharClass × List Char) :=
  match cs with
  | ':' :: cs =>
    let (negated, cs) := match cs with
      | '^' :: cs => (true, cs)
      | cs => (false, cs)
    match cs.dropWhile (· ≠ ':') with
    | ':' :: ']' :: rest =>
      (CharClass.ofName? (cs.takeWhile (· ≠ ':'))).map fun cls =>
        (if negated then .complement cls else cls, rest)
    | _ => none
  | _ => none

/-- The text after the dashes that a class begins with, and how many there are; `fuel` bounds their
number. -/
def readDashes (flags : PatternFlags) : (fuel : Nat) → List Char → Nat × List Char
  | fuel + 1, '-' :: cs =>
    let (n, rest) := readDashes flags fuel (skip flags cs)
    (n + 1, rest)
  | _, cs => (0, cs)

/-- Reads the beginning of a class after its opening bracket: whether it is negated, and the dashes
or the closing bracket that stand for themselves because they come first. -/
def readClassStart? (flags : PatternFlags) (cs : List Char) :
    Option (Bool × CharClass × List Char) :=
  let (negated, cs) := match skip flags cs with
    | '^' :: cs => (true, skip flags cs)
    | cs => (false, cs)
  let (dashes, cs) := readDashes flags cs.length cs
  match cs with
  | [] => none
  | ']' :: rest =>
    if dashes > 0 then some (negated, .single '-', cs)
    else
      match skip flags rest with
      | [] => none
      | rest => some (negated, .single ']', rest)
  | cs => some (negated, if dashes > 0 then .single '-' else .nothing, cs)

/-- Reads the items of a class up to its closing bracket. `left` is the operand before the last sign
and that sign; `items` holds the items since then; `fuel` bounds the number of steps. -/
def readItems? (flags : PatternFlags) :
    (fuel : Nat) → (left : Option (ClassOp × CharClass)) → (items : CharClass) → List Char →
      Option (CharClass × List Char)
  | 0, _, _, _ => none
  | fuel + 1, left, items, cs =>
    let operator (op : ClassOp) (rest : List Char) :=
      readItems? flags fuel (some (op, applyOp flags left items)) .nothing rest
    match skip flags cs with
    | [] => none
    | ']' :: rest => some (applyOp flags left items, rest)
    | '&' :: '&' :: rest => operator .inter rest
    | '-' :: '-' :: rest => operator .diff rest
    | '~' :: '~' :: rest => operator .symmDiff rest
    | '[' :: rest =>
      match readNamedClass? rest with
      | some (cls, rest) => readItems? flags fuel left (.union items cls) rest
      | none => do
        let (negated, first, rest) ← readClassStart? flags rest
        let (body, rest) ← readItems? flags fuel none first rest
        let cls ← closeClass? flags negated body
        readItems? flags fuel left (.union items cls) rest
    | rest => do
      let (cls, rest) ← readItem? flags rest
      readItems? flags fuel left (.union items cls) rest

/-- Reads a class after its opening bracket. -/
def readClass? (flags : PatternFlags) (cs : List Char) : Option (CharClass × List Char) := do
  let (negated, first, rest) ← readClassStart? flags cs
  let (body, rest) ← readItems? flags (cs.length + 1) none first rest
  return (← closeClass? flags negated body, rest)

end PatternText

end PlaybookLint
