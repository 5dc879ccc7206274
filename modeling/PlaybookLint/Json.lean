import PlaybookLint.Text.Number

/-!
# JSON documents

JSON values and their printed form over several lines.
-/

namespace PlaybookLint

/-- A JSON value, as far as reports need them. -/
inductive Json where
  | number (n : Nat)
  | string (text : String)
  | array (items : List Json)
  | object (members : List (String × Json))
  deriving Repr, Inhabited

namespace Json

/-- A number in four hexadecimal digits. -/
def fourDigits (n : Nat) : String :=
  let digits := Text.hexadecimal n
  "".pushn '0' (4 - digits.length) ++ digits

/-- A character as it stands in a string. -/
def escapeChar (c : Char) : String :=
  if c = '"' then "\\\""
  else if c = '\\' then "\\\\"
  else if c = '\n' then "\\n"
  else if c = '\r' then "\\r"
  else if c = '\t' then "\\t"
  else if c = '\x08' then "\\b"
  else if c = '\x0c' then "\\f"
  else if c.toNat < 32 then "\\u" ++ fourDigits c.toNat
  else c.toString

/-- A text as a string. -/
def quote (text : String) : String :=
  "\"" ++ String.join (text.toList.map escapeChar) ++ "\""

/-- The beginning of a line at some depth. -/
def indentation (depth : Nat) : String :=
  "".pushn ' ' (2 * depth)

/-- Lines between two brackets, one deeper than these; nothing between them if there are none. -/
def bracket (left right : String) (depth : Nat) (lines : List String) : String :=
  if lines.isEmpty then left ++ right
  else
    left ++ "\n" ++ indentation (depth + 1) ++
      (",\n" ++ indentation (depth + 1)).intercalate lines ++ "\n" ++ indentation depth ++ right

mutual

/-- A value at some depth, every item and every member on a line of its own. -/
def prettyAt (depth : Nat) : Json → String
  | .number n => toString n
  | .string text => quote text
  | .array items => bracket "[" "]" depth (prettyItems (depth + 1) items)
  | .object members => bracket "\x7b" "\x7d" depth (prettyMembers (depth + 1) members)

/-- The items of an array. -/
def prettyItems (depth : Nat) : List Json → List String
  | [] => []
  | item :: items => prettyAt depth item :: prettyItems depth items

/-- The members of an object. -/
def prettyMembers (depth : Nat) : List (String × Json) → List String
  | [] => []
  | (name, value) :: members =>
    (quote name ++ ": " ++ prettyAt depth value) :: prettyMembers depth members

end

/-- A value over several lines. -/
def pretty (value : Json) : String :=
  prettyAt 0 value

end Json

end PlaybookLint
