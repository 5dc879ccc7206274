/-!
# Texts

The white space of the Unicode `White_Space` property, with the trimming and splitting that depend
on it, and the cutting of a text at a character or at a piece of text. Every function works on the
list of characters of a text, so that each is one recursion or one library call.

## Main definitions

* `isBlank` - a character with the `White_Space` property.
* `trimStart`, `trimEnd`, `trim` - a text without the blanks at its ends.
* `words` - the maximal runs of characters that are not blank.
* `splitAll` - the pieces between all occurrences of a separator; one more than there are
  occurrences.
* `splitOnce` - the text before and after the first occurrence of a separator.
* `dropPrefix?` - what follows a given beginning.
* `cutAt?` - the text before and after the first occurrence of a piece of text.
* `padRight` - a text in a column.
-/

namespace PlaybookLint.Text

/-! ## Blanks -/

/-- A character with the Unicode `White_Space` property. -/
def isBlank (c : Char) : Bool :=
  (9 ≤ c.toNat && c.toNat ≤ 13) || c == ' ' || c.toNat == 0x85 || c.toNat == 0xA0 ||
    c.toNat == 0x1680 || (0x2000 ≤ c.toNat && c.toNat ≤ 0x200A) || c.toNat == 0x2028 ||
    c.toNat == 0x2029 || c.toNat == 0x202F || c.toNat == 0x205F || c.toNat == 0x3000

/-- The text from its first character that is not blank. -/
def trimStart (cs : List Char) : List Char :=
  cs.dropWhile isBlank

/-- The text up to its last character that is not blank. -/
def trimEnd (cs : List Char) : List Char :=
  (cs.reverse.dropWhile isBlank).reverse

/-- The text without the blanks at both of its ends. -/
def trim (cs : List Char) : List Char :=
  trimEnd (trimStart cs)

/-- A text that holds nothing but blanks. -/
def isBlankText (cs : List Char) : Bool :=
  cs.all isBlank

/-- Collects words: `current` is the word being read, reversed. -/
def wordsFrom (current : List Char) : List Char → List (List Char)
  | [] => if current.isEmpty then [] else [current.reverse]
  | c :: cs =>
    if isBlank c then
      if current.isEmpty then wordsFrom [] cs else current.reverse :: wordsFrom [] cs
    else
      wordsFrom (c :: current) cs

/-- The maximal runs of characters that are not blank, in order. -/
def words (cs : List Char) : List (List Char) :=
  wordsFrom [] cs

/-! ## Cutting a text -/

/-- The pieces of a text between the occurrences of `sep`; an empty text has one empty piece. -/
def splitAll (sep : Char) : List Char → List (List Char)
  | [] => [[]]
  | c :: cs =>
    if c = sep then
      [] :: splitAll sep cs
    else
      match splitAll sep cs with
      | [] => [[c]]
      | piece :: pieces => (c :: piece) :: pieces

@[simp] theorem splitAll_ne_nil (sep : Char) (cs : List Char) : splitAll sep cs ≠ [] := by
  fun_induction splitAll sep cs <;> simp

/-- Putting the separators back between the pieces gives the text. -/
theorem intercalate_splitAll (sep : Char) (cs : List Char) :
    [sep].intercalate (splitAll sep cs) = cs := by
  fun_induction splitAll sep cs with
  | case1 => simp [List.intercalate]
  | case2 cs ih =>
    cases h : splitAll sep cs with
    | nil => simp at h
    | cons piece pieces => simpa [h, List.intercalate] using ih
  | case3 c cs hc h ih => simp at h
  | case4 c cs hc piece pieces h ih =>
    cases pieces <;> simp_all [List.intercalate]

/-- The text before and after the first character that satisfies `p`. -/
def splitOnce (p : Char → Bool) : List Char → Option (List Char × List Char)
  | [] => none
  | c :: cs =>
    if p c then some ([], cs)
    else (splitOnce p cs).map fun (before, after) => (c :: before, after)

/-- What follows `start` in the text, if the text begins with it. -/
def dropPrefix? : (start : List Char) → List Char → Option (List Char)
  | [], cs => some cs
  | _ :: _, [] => none
  | p :: ps, c :: cs => if p = c then dropPrefix? ps cs else none

theorem dropPrefix?_eq_some_iff {start cs rest : List Char} :
    dropPrefix? start cs = some rest ↔ cs = start ++ rest := by
  fun_induction dropPrefix? start cs <;> grind

/-- The text before and after the first occurrence of `piece`. -/
def cutAt? (piece : List Char) : List Char → Option (List Char × List Char)
  | [] => if piece.isEmpty then some ([], []) else none
  | c :: cs =>
    match dropPrefix? piece (c :: cs) with
    | some after => some ([], after)
    | none => (cutAt? piece cs).map fun (before, after) => (c :: before, after)

/-- Whether `piece` occurs in the text. -/
def hasPiece (piece cs : List Char) : Bool :=
  (cutAt? piece cs).isSome

/-- The part after the last `sep`, or the whole text when there is none. -/
def afterLast (sep : Char) (cs : List Char) : List Char :=
  (cs.reverse.takeWhile (· ≠ sep)).reverse

/-! ## Columns -/

/-- A text with blanks after it up to a width in characters. -/
def padRight (width : Nat) (text : String) : String :=
  text.pushn ' ' (width - text.length)

end PlaybookLint.Text
