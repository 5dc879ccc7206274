import PlaybookLint.Text.Basic
import PlaybookLint.Text.Number
import PlaybookLint.Toml

/-!
# Numbers and dates

The values of a TOML file that are written without quotes and brackets.

## Main definitions

* `isInteger`, `isFloat` - the numbers.
* `isDateTime` - dates, times and both together.
* `readLiteral?` - what a word stands for.
-/

namespace PlaybookLint.Toml

/-- Whether a text is digits of some kind, with single underscores between them allowed. -/
def isDigits (isDigit : Char → Bool) (cs : List Char) : Bool :=
  (Text.splitAll '_' cs).all fun piece => !piece.isEmpty && piece.all isDigit

/-- The value of digits in some base, without regard to underscores. -/
def digitsNumber (base : Nat) (cs : List Char) : Nat :=
  (cs.filter (· ≠ '_')).foldl (fun n c => base * n + (Text.hexValue? c).getD 0) 0

/-- The least number that is too large. -/
def integerBound : Nat := Nat.pow 2 63

/-- Whether a text without a sign is a decimal integer. -/
def isDecimal (cs : List Char) : Bool :=
  isDigits Char.isDigit cs && (cs.head? ≠ some '0' || cs = ['0'])

/-- The digits of a base other than ten, and the base. -/
def basedDigits? : List Char → Option (Nat × List Char)
  | '0' :: 'x' :: cs => some (16, cs)
  | '0' :: 'o' :: cs => some (8, cs)
  | '0' :: 'b' :: cs => some (2, cs)
  | _ => none

/-- Whether a character is a digit of a base. -/
def isDigitOf (base : Nat) (c : Char) : Bool :=
  (Text.hexValue? c).any fun v => decide (v < base)

/-- Whether a text is an integer of a size that can be stored. -/
def isInteger (cs : List Char) : Bool :=
  match basedDigits? cs with
  | some (base, digits) =>
    isDigits (isDigitOf base) digits && decide (digitsNumber base digits < integerBound)
  | none =>
    let digits := Text.dropSign cs
    let bound := if cs.head? = some '-' then integerBound + 1 else integerBound
    isDecimal digits && decide (digitsNumber 10 digits < bound)

/-- Whether a text is an exponent after its letter. -/
def isExponent (cs : List Char) : Bool :=
  isDigits Char.isDigit (Text.dropSign cs)

/-- Whether a decimal number is too large to be stored: at least `2 ^ 1024` less half a unit in the
last place. -/
def overflows (cs : List Char) : Bool :=
  match Text.Decimal.read? (cs.filter (· ≠ '_')) with
  | some d =>
    let magnitude : Int := d.exponent + Text.Decimal.length d.digits
    if d.digits = 0 || magnitude < 309 then false
    else if magnitude > 309 then true
    else
      let bound := Nat.pow 2 1024 - Nat.pow 2 970
      if d.exponent ≥ 0 then decide (bound ≤ d.digits * Nat.pow 10 d.exponent.toNat)
      else decide (bound * Nat.pow 10 (-d.exponent).toNat ≤ d.digits)
  | none => false

/-- Whether a text is a number with a fraction, an exponent or both, or one of the special ones. -/
def isFloat (cs : List Char) : Bool :=
  let body := Text.dropSign cs
  if body = ['i', 'n', 'f'] || body = ['n', 'a', 'n'] then true
  else
    let isE (c : Char) := c = 'e' || c = 'E'
    let (mantissa, exponent) := match Text.splitOnce isE body with
      | some (mantissa, exponent) => (mantissa, some exponent)
      | none => (body, none)
    let (whole, fraction) := match Text.splitOnce (· = '.') mantissa with
      | some (whole, fraction) => (whole, some fraction)
      | none => (mantissa, none)
    isDecimal whole && fraction.all (isDigits Char.isDigit) && exponent.all isExponent &&
      (fraction.isSome || exponent.isSome) && !overflows cs

/-! ### Dates -/

/-- The value of exactly `n` digits. -/
def fixedNumber? (n : Nat) (cs : List Char) : Option Nat :=
  if cs.length = n && cs.all Char.isDigit then some (Text.digitsValue cs) else none

/-- The number of days of a month of a year. -/
def daysOfMonth (year month : Nat) : Nat :=
  if month = 2 then
    if year % 4 = 0 && (year % 100 ≠ 0 || year % 400 = 0) then 29 else 28
  else if [4, 6, 9, 11].contains month then 30
  else 31

/-- Whether a text is a date. -/
def isDate (cs : List Char) : Bool :=
  match Text.splitAll '-' cs with
  | [year, month, day] =>
    match fixedNumber? 4 year, fixedNumber? 2 month, fixedNumber? 2 day with
    | some y, some m, some d =>
      decide (1 ≤ m) && decide (m ≤ 12) && decide (1 ≤ d) && decide (d ≤ daysOfMonth y m)
    | _, _, _ => false
  | _ => false

/-- Whether a text is two digits for a number up to a bound. -/
def isUpTo (bound : Nat) (cs : List Char) : Bool :=
  (fixedNumber? 2 cs).any fun n => decide (n ≤ bound)

/-- Whether a text is the seconds of a time. -/
def isSecond (cs : List Char) : Bool :=
  match Text.splitOnce (· = '.') cs with
  | some (second, fraction) => isUpTo 60 second && !fraction.isEmpty && fraction.all Char.isDigit
  | none => isUpTo 60 cs

/-- Whether a text is a time. -/
def isTime (cs : List Char) : Bool :=
  match Text.splitAll ':' cs with
  | [hour, minute, second] => isUpTo 23 hour && isUpTo 59 minute && isSecond second
  | _ => false

/-- Whether a text is the distance of a time zone. -/
def isOffset (cs : List Char) : Bool :=
  match Text.splitAll ':' cs with
  | [hour, minute] => isUpTo 23 hour && isUpTo 59 minute
  | _ => false

/-- Whether a text is a time, perhaps with a time zone. -/
def isZonedTime (cs : List Char) : Bool :=
  isTime cs ||
    match cs.reverse with
    | c :: rest =>
      if c = 'Z' || c = 'z' then isTime rest.reverse
      else
        match Text.splitOnce (fun c => c = '+' || c = '-') cs with
        | some (time, offset) => isTime time && isOffset offset
        | none => false
    | [] => false

/-- Whether a text is a date, a time, or both. -/
def isDateTime (cs : List Char) : Bool :=
  isDate cs || isTime cs ||
    (isDate (cs.take 10) &&
      match cs.drop 10 with
      | c :: rest => (c = 'T' || c = 't' || c = ' ') && isZonedTime rest
      | [] => false)

/-- A character that can stand in a value without quotes and brackets. -/
def isLiteralChar (c : Char) : Bool :=
  c.isAlphanum || c = '+' || c = '-' || c = '_' || c = '.' || c = ':'

/-- What a word without quotes stands for. -/
def ofLiteral? (cs : List Char) : Option Item :=
  if cs = "true".toList then some (.boolean true)
  else if cs = "false".toList then some (.boolean false)
  else if isInteger cs || isFloat cs then some .number
  else if isDateTime cs then some .date
  else none

/-- The first word of a text: a run of characters of values, which goes on after a blank if it is a
date that a time follows. -/
def cutLiteral (cs : List Char) : List Char × List Char :=
  let (word, rest) := cs.span isLiteralChar
  match rest with
  | ' ' :: h :: rest' =>
    if isDate word && h.isDigit then
      let (time, after) := (h :: rest').span isLiteralChar
      (word ++ ' ' :: time, after)
    else (word, rest)
  | _ => (word, rest)

/-- Reads a value without quotes and brackets. -/
def readLiteral? (cs : List Char) : Option (Item × List Char) :=
  let (word, rest) := cutLiteral cs
  (ofLiteral? word).map (·, rest)

end PlaybookLint.Toml
