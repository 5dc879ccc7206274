/-!
# Numbers in texts

Numbers in sixteen digits, and the characters that they number. Texts that are read as decimal
numbers, and the question whether such a number is zero once it has been rounded to a binary
floating-point number of 64 bits. The rounding is decided exactly: a value rounds to zero if and
only if it is at most half of the least positive number, `2 ^ (-1074)`, a tie going to the even
neighbour, which is zero.

## Main definitions

* `hexNumber`, `hexadecimal` - numbers in sixteen digits.
* `charOfCode?` - the character with a number.
* `Decimal` - a number as its digits and the power of ten that scales them.
* `Decimal.read?` - the number that a text spells.
* `Decimal.roundsToZero` - whether nothing is left of the number after rounding.
-/

namespace PlaybookLint.Text

/-! ## Hexadecimal numbers -/

/-- The value of a hexadecimal digit. -/
def hexValue? (c : Char) : Option Nat :=
  if c.isDigit then some (c.toNat - '0'.toNat)
  else if 'a' ≤ c ∧ c ≤ 'f' then some (c.toNat - 'a'.toNat + 10)
  else if 'A' ≤ c ∧ c ≤ 'F' then some (c.toNat - 'A'.toNat + 10)
  else none

/-- Whether a character is a hexadecimal digit. -/
def isHexDigit (c : Char) : Bool :=
  (hexValue? c).isSome

/-- The value of a list of hexadecimal digits; other characters count as zero. -/
def hexNumber (cs : List Char) : Nat :=
  cs.foldl (fun n c => 16 * n + (hexValue? c).getD 0) 0

/-- The character with a code point, if there is one. -/
def charOfCode? (n : Nat) : Option Char :=
  if n.isValidChar then some (Char.ofNat n) else none

/-- A number in lower-case hexadecimal digits. -/
def hexadecimal (n : Nat) : String :=
  String.ofList (Nat.toDigits 16 n)

/-! ## Decimal numbers -/

/-- The absolute value `digits * 10 ^ exponent`. -/
structure Decimal where
  digits : Nat
  exponent : Int
  deriving Repr, DecidableEq

/-- The value of a list of decimal digits. -/
def digitsValue (cs : List Char) : Nat :=
  cs.foldl (fun n c => 10 * n + (c.toNat - '0'.toNat)) 0

/-- The text without one leading `+` or `-`. -/
def dropSign : List Char → List Char
  | '+' :: cs => cs
  | '-' :: cs => cs
  | cs => cs

/-- The exponent that a text after the `e` of a number spells: an optional sign and at least one
digit. -/
def readExponent? (cs : List Char) : Option Int :=
  let digits := dropSign cs
  if digits.isEmpty || !digits.all Char.isDigit then none
  else if cs.head? = some '-' then some (-(digitsValue digits : Int))
  else some (digitsValue digits)

namespace Decimal

/-- Reads an unsigned number: digits with at most one point among them, and perhaps an exponent. -/
def readUnsigned? (cs : List Char) : Option Decimal :=
  let (whole, rest) := cs.span Char.isDigit
  let (fraction, rest) :=
    match rest with
    | '.' :: rest => rest.span Char.isDigit
    | rest => ([], rest)
  if whole.isEmpty && fraction.isEmpty then none
  else
    let exponent? :=
      match rest with
      | [] => some 0
      | c :: rest => if c = 'e' ∨ c = 'E' then readExponent? rest else none
    exponent?.map fun e => ⟨digitsValue (whole ++ fraction), e - fraction.length⟩

/-- Reads a number with an optional sign, which is dropped. -/
def read? (cs : List Char) : Option Decimal :=
  readUnsigned? (dropSign cs)

/-- How many decimal digits a positive number has. -/
def length (n : Nat) : Nat :=
  (Nat.toDigits 10 n).length

/-- Whether the number is at most `2 ^ (-1075)`. The powers of ten on both sides of that bound
settle all numbers but those between them, which are compared as integers. -/
def roundsToZero (d : Decimal) : Bool :=
  if d.digits = 0 then true
  else
    let magnitude : Int := d.exponent + length d.digits
    if magnitude < -323 then true
    else if magnitude > -323 then false
    else decide (d.digits * Nat.pow 2 1075 ≤ Nat.pow 10 (-d.exponent).toNat)

end Decimal

/-- Whether a text without its sign spells a number: hexadecimal digits after `0x`, or a decimal
number, which may have a sign of its own. -/
def spellsNumber (cs : List Char) : Bool :=
  match dropSign cs with
  | [] => false
  | '0' :: 'x' :: digits =>
    !digits.isEmpty && digits.all isHexDigit
  | body => (Decimal.read? body).isSome

/-- Whether a text spells a decimal number that rounds to zero. -/
def spellsZero (cs : List Char) : Bool :=
  (Decimal.read? cs).any Decimal.roundsToZero

end PlaybookLint.Text
