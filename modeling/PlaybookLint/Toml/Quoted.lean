import PlaybookLint.Text.Number

/-!
# Quoted texts of settings

Texts between quotes, on one line or on several, with escapes or without.

## Main definitions

* `readText?` - reads a text on one line.
* `readLongText?` - reads a text between triple quotes.
-/

namespace PlaybookLint.Toml

/-- A character that may stand in a line: any but the controls, the tab excepted. -/
def isLineChar (c : Char) : Bool :=
  c = '\t' || (decide (32 ≤ c.toNat) && c.toNat ≠ 127)

/-- The characters that are spelled by a letter after a backslash. -/
def letterEscapes : List (Char × Char) :=
  [('b', '\x08'), ('t', '\t'), ('n', '\n'), ('f', '\x0c'), ('r', '\r'), ('"', '"'), ('\\', '\\')]

/-- The character with the number that some hexadecimal digits spell. -/
def numbered? (digits : List Char) : Option Char :=
  if digits.all Text.isHexDigit then Text.charOfCode? (Text.hexNumber digits) else none

/-- Reads an escape after its backslash. -/
def readEscape? : List Char → Option (Char × List Char)
  | 'u' :: a :: b :: c :: d :: rest => (numbered? [a, b, c, d]).map (·, rest)
  | 'U' :: a :: b :: c :: d :: e :: f :: g :: h :: rest =>
    (numbered? [a, b, c, d, e, f, g, h]).map (·, rest)
  | c :: rest => (letterEscapes.lookup c).map (·, rest)
  | [] => none

/-- Reads a text on one line up to its closing quote. Escapes count between double quotes only.
`fuel` bounds the number of characters. -/
def readTextFrom? (quote : Char) : (fuel : Nat) → List Char → Option (List Char × List Char)
  | fuel + 1, c :: rest =>
    if c = quote then some ([], rest)
    else if c = '\\' && quote = '"' then
      (readEscape? rest).bind fun (d, rest) =>
        (readTextFrom? quote fuel rest).map fun (text, rest) => (d :: text, rest)
    else if isLineChar c then
      (readTextFrom? quote fuel rest).map fun (text, rest) => (c :: text, rest)
    else none
  | _, _ => none

/-- Reads a text on one line after its opening quote. -/
def readText? (quote : Char) (cs : List Char) : Option (List Char × List Char) :=
  readTextFrom? quote (cs.length + 1) cs

/-- The text after a line end that it begins with; `none` if it begins with something else. -/
def dropLineEnd? : List Char → Option (List Char)
  | '\n' :: rest => some rest
  | '\r' :: '\n' :: rest => some rest
  | _ => none

/-- The text without the blanks and line ends that it begins with. -/
def dropLines : List Char → List Char
  | [] => []
  | c :: rest =>
    if c = ' ' || c = '\t' || c = '\n' then dropLines rest
    else
      match c, rest with
      | '\r', '\n' :: rest => dropLines rest
      | _, _ => c :: rest

/-- The text after a backslash that ends a line, without the blanks and lines that are skipped. -/
def dropJoint? (cs : List Char) : Option (List Char) :=
  (dropLineEnd? (cs.dropWhile fun c => c = ' ' || c = '\t')).map dropLines

/-- Reads a text between triple quotes up to the closing ones, of which up to two more belong to the
text. `fuel` bounds the number of characters. -/
def readLongFrom? (quote : Char) : (fuel : Nat) → List Char → Option (List Char × List Char)
  | fuel + 1, c :: rest =>
    if c = quote then
      let more := (rest.takeWhile (· = quote)).length
      if more ≥ 2 then
        let kept := min (more - 2) 2
        some (List.replicate kept quote, rest.drop (kept + 2))
      else (readLongFrom? quote fuel rest).map fun (text, rest) => (c :: text, rest)
    else if c = '\\' && quote = '"' then
      match dropJoint? rest with
      | some rest => readLongFrom? quote fuel rest
      | none =>
        (readEscape? rest).bind fun (d, rest) =>
          (readLongFrom? quote fuel rest).map fun (text, rest) => (d :: text, rest)
    else
      match dropLineEnd? (c :: rest) with
      | some rest => (readLongFrom? quote fuel rest).map fun (text, rest) => ('\n' :: text, rest)
      | none =>
        if isLineChar c then
          (readLongFrom? quote fuel rest).map fun (text, rest) => (c :: text, rest)
        else none
  | _, _ => none

/-- Reads a text between triple quotes after the opening ones. A line end that comes first is left
out. -/
def readLongText? (quote : Char) (cs : List Char) : Option (List Char × List Char) :=
  readLongFrom? quote (cs.length + 1) ((dropLineEnd? cs).getD cs)

end PlaybookLint.Toml
