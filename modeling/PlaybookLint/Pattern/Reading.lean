import PlaybookLint.Pattern.Escape
import PlaybookLint.Text.Unicode

/-!
# Reading patterns

The written form of patterns.

## Main definitions

* `PatternReading` - a pattern that has been read up to some place.
* `PatternReading.step?` - reads one more part.
* `Pattern.read?` - the pattern that a text spells.

## Design notes

A pattern is read from left to right. The groups that are open form a stack; flags that are set
inside a group hold until the group ends, also across its alternatives. A pattern whose repetitions
are too large to be written out is refused.
-/

namespace PlaybookLint

/-- A group that is open around the innermost one. -/
structure OpenGroup where
  /-- The flags that hold again after the inner group. -/
  flags : PatternFlags
  /-- Its finished alternatives, latest first. -/
  alternatives : List Pattern
  /-- The parts of its current alternative, latest first. -/
  parts : List (Option Pattern)
  deriving Repr, Inhabited

/-- A pattern that has been read up to some place. -/
structure PatternReading where
  /-- The text that is still to be read. -/
  rest : List Char
  flags : PatternFlags
  /-- The names of groups so far. -/
  names : List (List Char)
  /-- The finished alternatives of the innermost group, latest first. -/
  alternatives : List Pattern
  /-- The parts of its current alternative, latest first; `none` for a part that only sets flags. -/
  parts : List (Option Pattern)
  /-- The groups around it, innermost first. -/
  outer : List OpenGroup
  deriving Repr, Inhabited

namespace PatternReading

/-- The pattern of some parts, latest first. -/
def joinParts (parts : List (Option Pattern)) : Pattern :=
  parts.foldl (fun later part =>
    match part, later with
    | none, later => later
    | some p, .empty => p
    | some p, later => .seq p later) .empty

/-- The pattern of the innermost group. -/
def groupPattern (r : PatternReading) : Pattern :=
  r.alternatives.foldl (fun later p => .alt p later) (joinParts r.parts)

/-- The reading with one more part, which ends where `rest` begins. -/
def push (r : PatternReading) (p : Pattern) (rest : List Char) : PatternReading :=
  { r with parts := some p :: r.parts, rest := rest }

/-! ### Single parts -/

/-- The pattern of one character. -/
def literalPattern (flags : PatternFlags) (c : Char) : Pattern :=
  .charIn (PatternText.fold flags (.single c))

/-- The pattern of an atom. A byte that is no character is refused. -/
def atomPattern? (flags : PatternFlags) : Atom → Option Pattern
  | .literal c isByte =>
    if !flags.unicode && isByte && c.toNat ≥ 128 then none
    else if !flags.unicode && flags.ignoreCase && c.toNat ≥ 128 then none
    else some (literalPattern flags c)
  | .cls cls => some (.charIn cls)
  | .look l => some (.look l)

/-- The pattern of a dot. -/
def dotPattern? (flags : PatternFlags) : Option Pattern :=
  if !flags.unicode then none
  else if flags.dotAll then some (.charIn .anything)
  else if flags.anyLineEnds then some (.charIn (.complement (.ofList ['\n', '\r'])))
  else some (.charIn (.complement (.single '\n')))

/-- The condition that `^` stands for. -/
def caret (flags : PatternFlags) : Look :=
  if flags.multiLine then if flags.anyLineEnds then .anyLineStart else .lineStart else .textStart

/-- The condition that `$` stands for. -/
def dollar (flags : PatternFlags) : Look :=
  if flags.multiLine then if flags.anyLineEnds then .anyLineEnd else .lineEnd else .textEnd

/-! ### Repetitions -/

/-- The largest number of repetitions that can be spelled. -/
def maxCount : Nat := Nat.pow 2 32 - 1

/-- Reads a number of repetitions, with blanks around it. The number is `none` if there is none, or
if it is too large. -/
def readCount (flags : PatternFlags) (cs : List Char) : Option Nat × List Char :=
  let cs := cs.dropWhile Text.isBlank
  let (digits, rest) := PatternText.readDigits flags Char.isDigit cs.length cs
  let n := digits.foldl (fun n c => 10 * n + (c.toNat - '0'.toNat)) 0
  let rest := if flags.verbose then PatternText.skip flags (rest.dropWhile Text.isBlank)
    else rest.dropWhile Text.isBlank
  (if digits.isEmpty || n > maxCount then none else some n, rest)

/-- The text after a `?` that a repetition ends with, which says which match is preferred. -/
def dropLazy : List Char → List Char
  | '?' :: cs => cs
  | cs => cs

/-- Reads the bounds of a repetition after its opening brace. -/
def readBounds? (flags : PatternFlags) (cs : List Char) :
    Option (Nat × Option Nat × List Char) :=
  match PatternText.skip flags cs with
  | [] => none
  | cs =>
    let (least, rest) := readCount flags cs
    match rest with
    | ',' :: rest =>
      match PatternText.skip flags rest with
      | '\x7d' :: rest => least.map fun least => (least, none, rest)
      | rest =>
        match least, readCount flags rest with
        | some least, (some most, '\x7d' :: rest) =>
          if least ≤ most then some (least, some most, rest) else none
        | _, _ => none
    | '\x7d' :: rest => least.map fun least => (least, some least, rest)
    | _ => none

/-- The reading with its last part repeated. Something has to be there that can be. -/
def repeatLast? (r : PatternReading) (least : Nat) (most : Option Nat) (rest : List Char) :
    Option PatternReading :=
  match r.parts with
  | some p :: parts =>
    some { r with parts := some (.repeated p least most) :: parts, rest := dropLazy rest }
  | _ => none

/-! ### Groups -/

/-- The flags with one of them set; `none` for a letter that is no flag. -/
def setFlag? (flags : PatternFlags) (value : Bool) (c : Char) : Option PatternFlags :=
  match c with
  | 'i' => some { flags with ignoreCase := value }
  | 'm' => some { flags with multiLine := value }
  | 's' => some { flags with dotAll := value }
  | 'R' => some { flags with anyLineEnds := value }
  | 'u' => some { flags with unicode := value }
  | 'x' => some { flags with verbose := value }
  | 'U' => some flags
  | _ => none

/-- Reads the letters of flags up to a colon or a closing parenthesis: the flags, that character,
and the rest after it. No letter may occur twice, and a dash has to be followed by a letter. -/
def readFlags? (flags : PatternFlags) (seen : List Char) :
    List Char → Option (PatternFlags × Char × List Char)
  | [] => none
  | c :: cs =>
    if c = ':' || c = ')' then
      if seen.head? = some '-' || (c = ')' && seen.isEmpty) then none else some (flags, c, cs)
    else if seen.contains c then none
    else if c = '-' then readFlags? flags ('-' :: seen) cs
    else (setFlag? flags (!seen.contains '-') c).bind fun flags => readFlags? flags (c :: seen) cs

/-- Whether a character can begin the name of a group. -/
def isNameStart (c : Char) : Bool :=
  c = '_' || (Text.isWordChar c && !c.isDigit)

/-- Whether a character can stand in the name of a group. -/
def isNameChar (c : Char) : Bool :=
  c = '.' || c = '[' || c = ']' || Text.isWordChar c

/-- Reads the name of a group up to its closing angle bracket. -/
def readName? (cs : List Char) : Option (List Char × List Char) :=
  let name := cs.takeWhile (· ≠ '>')
  match cs.drop name.length with
  | [] => none
  | _ :: rest =>
    if name.head?.any isNameStart && name.all isNameChar then some (name, rest) else none

/-- The reading inside a new group. -/
def openGroup (r : PatternReading) (flags : PatternFlags) (rest : List Char) : PatternReading where
  rest := rest
  flags := flags
  names := r.names
  alternatives := []
  parts := []
  outer := ⟨r.flags, r.alternatives, r.parts⟩ :: r.outer

/-- The reading inside a new group with a name, which has to be new. -/
def openNamed? (r : PatternReading) (cs : List Char) : Option PatternReading := do
  let (name, rest) ← readName? cs
  if r.names.contains name then none
  else some { r.openGroup r.flags rest with names := name :: r.names }

/-- Reads what follows an opening parenthesis. A pattern cannot look around itself. -/
def readGroup? (r : PatternReading) (cs : List Char) : Option PatternReading :=
  match PatternText.skip r.flags cs with
  | '?' :: 'P' :: '<' :: rest => r.openNamed? rest
  | '?' :: '<' :: '=' :: _ | '?' :: '<' :: '!' :: _ => none
  | '?' :: '=' :: _ | '?' :: '!' :: _ => none
  | '?' :: '<' :: rest => r.openNamed? rest
  | '?' :: rest =>
    match readFlags? r.flags [] rest with
    | some (flags, ')', rest) =>
      some { r with flags := flags, parts := none :: r.parts, rest := rest }
    | some (flags, _, rest) => some (r.openGroup flags rest)
    | none => none
  | rest => some (r.openGroup r.flags rest)

/-- The reading after the innermost group, which has to be one. -/
def closeGroup? (r : PatternReading) (rest : List Char) : Option PatternReading :=
  match r.outer with
  | [] => none
  | group :: outer => some {
      rest := rest
      flags := group.flags
      names := r.names
      alternatives := group.alternatives
      parts := some r.groupPattern :: group.parts
      outer := outer }

/-! ### The whole pattern -/

/-- Reads the part that begins with `c`. -/
def step? (r : PatternReading) (c : Char) (cs : List Char) : Option PatternReading :=
  let bounded := PatternText.skip r.flags
  match c with
  | '(' => r.readGroup? cs
  | ')' => r.closeGroup? cs
  | '|' => some { r with
      alternatives := joinParts r.parts :: r.alternatives, parts := [], rest := cs }
  | '[' => (PatternText.readClass? r.flags cs).map fun (cls, rest) => r.push (.charIn cls) rest
  | '?' => r.repeatLast? 0 (some 1) cs
  | '*' => r.repeatLast? 0 none cs
  | '+' => r.repeatLast? 1 none cs
  | '\x7b' =>
    (readBounds? r.flags cs).bind fun (least, most, rest) => r.repeatLast? least most (bounded rest)
  | '\\' => do
    let (atom, rest) ← PatternText.readEscape? r.flags cs
    return r.push (← atomPattern? r.flags atom) rest
  | '.' => (dotPattern? r.flags).map fun p => r.push p cs
  | '^' => some (r.push (.look (caret r.flags)) cs)
  | '$' => some (r.push (.look (dollar r.flags)) cs)
  | c => (atomPattern? r.flags (.literal c false)).map fun p => r.push p cs

/-- Reads everything that is left; `fuel` bounds the number of parts. -/
def run? : (fuel : Nat) → PatternReading → Option Pattern
  | 0, _ => none
  | fuel + 1, r =>
    match PatternText.skip r.flags r.rest with
    | [] => if r.outer.isEmpty then some r.groupPattern else none
    | c :: cs => (r.step? c cs).bind (run? fuel)

end PatternReading

namespace Pattern

/-- The number of characters that a pattern may have when its repetitions are written out. -/
def maxSize : Nat := 10 * Nat.pow 2 20 / 32

/-- The pattern that a text spells. -/
def read? (text : List Char) : Option Pattern :=
  (PatternReading.run? (text.length + 1)
    ⟨text, .initial, [], [], [], []⟩).filter fun p => decide (p.size ≤ maxSize)

end Pattern

end PlaybookLint
