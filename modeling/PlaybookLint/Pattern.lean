import PlaybookLint.Pattern.CharClass

/-!
# Patterns

Regular expressions, and the question whether a text begins with a match.

## Main definitions

* `Pattern` - a regular expression.
* `Pattern.ends` - the places where matches that start at given places can end.
* `Pattern.matchesStart` - whether some match starts at the beginning of a text.

## Design notes

Only whether there is a match matters, never which one of several is preferred. A pattern can thus
be read as a map on sets of places, and a repetition as an iteration of that map: it reaches nothing
new after as many rounds as the text has places.
-/

namespace PlaybookLint

/-- A condition on a place in a text. -/
inductive Look where
  | textStart
  | textEnd
  | lineStart
  | lineEnd
  /-- Like `lineStart`, for lines that end with a carriage return, a line feed or both. -/
  | anyLineStart
  | anyLineEnd
  | wordEdge
  | notWordEdge
  | wordStart
  | wordEnd
  | wordStartHalf
  | wordEndHalf
  deriving Repr, DecidableEq, Inhabited

/-- A regular expression. -/
inductive Pattern where
  | empty
  | charIn (cls : CharClass)
  | look (l : Look)
  | seq (p q : Pattern)
  | alt (p q : Pattern)
  /-- At least `least` times `p`, and at most `most` times if that is given. -/
  | repeated (p : Pattern) (least : Nat) (most : Option Nat)
  deriving Repr, DecidableEq, Inhabited

namespace Look

/-- A character of a word. -/
def isWordChar (c : Char) : Bool :=
  CharClass.wordChars.contains c

/-- Whether the condition holds between two characters; at an end of the text there is none. -/
def between (before after : Option Char) : Look → Bool
  | .textStart => before.isNone
  | .textEnd => after.isNone
  | .lineStart => before.all (· = '\n')
  | .lineEnd => after.all (· = '\n')
  | .anyLineStart =>
    before.all fun c => c = '\n' || (c = '\r' && after ≠ some '\n')
  | .anyLineEnd =>
    after.all fun c => c = '\r' || (c = '\n' && before ≠ some '\r')
  | .wordEdge => before.any isWordChar != after.any isWordChar
  | .notWordEdge => before.any isWordChar == after.any isWordChar
  | .wordStart => !before.any isWordChar && after.any isWordChar
  | .wordEnd => before.any isWordChar && !after.any isWordChar
  | .wordStartHalf => !before.any isWordChar
  | .wordEndHalf => !after.any isWordChar

/-- Whether the condition holds at a place of a text. -/
def holds (text : Array Char) (look : Look) (i : Nat) : Bool :=
  look.between (if i = 0 then none else text[i - 1]?) text[i]?

end Look

/-- A set of places: an increasing list. -/
abbrev Places := List Nat

namespace Places

/-- The places of either of two sets. -/
def union : Places → Places → Places
  | [], s => s
  | s, [] => s
  | i :: s, j :: t =>
    if i < j then i :: union s (j :: t)
    else if j < i then j :: union (i :: s) t
    else i :: union s t
  termination_by s t => s.length + t.length

@[simp] theorem mem_union {i : Nat} {s t : Places} : i ∈ union s t ↔ i ∈ s ∨ i ∈ t := by
  fun_induction union s t <;> grind

/-- The set reached by exactly `n` rounds of `f`. -/
def times (f : Places → Places) : (n : Nat) → Places → Places
  | 0, s => s
  | n + 1, s =>
    let t := f s
    if t = s then s else times f n t

/-- The set reached by at most `n` rounds of `f`. -/
def upTo (f : Places → Places) : (n : Nat) → Places → Places
  | 0, s => s
  | n + 1, s =>
    let t := union s (f s)
    if t = s then s else upTo f n t

end Places

namespace Pattern

/-- The places where a match that starts at one of the given places can end. -/
def ends (text : Array Char) : Pattern → Places → Places
  | .empty, s => s
  | .charIn cls, s => (s.filter fun i => text[i]?.any cls.contains).map (· + 1)
  | .look l, s => s.filter (l.holds text)
  | .seq p q, s => q.ends text (p.ends text s)
  | .alt p q, s => (p.ends text s).union (q.ends text s)
  | .repeated p least most, s =>
    let more := (most.map (· - least)).getD (text.size + 1)
    Places.upTo (p.ends text) more (Places.times (p.ends text) least s)

/-- Whether some match starts at the beginning of a text. -/
def matchesStart (p : Pattern) (text : List Char) : Bool :=
  !(p.ends text.toArray [0]).isEmpty

/-- How many characters the pattern has when its repetitions are written out. -/
def size : Pattern → Nat
  | .empty | .look _ => 1
  | .charIn _ => 1
  | .seq p q => p.size + q.size
  | .alt p q => p.size + q.size + 1
  | .repeated p least most => p.size * max 1 (max least (most.getD 0))

end Pattern

end PlaybookLint
