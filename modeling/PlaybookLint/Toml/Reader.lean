import PlaybookLint.Toml.Literal
import PlaybookLint.Toml.Quoted

/-!
# Reading settings

The written form of tables of settings.

## Main definitions

* `readKey?` - reads a dotted key.
* `readValue?` - reads a value.
* `Table.read?` - the table that a text spells.

## Design notes

A reader answers with what it has read and with the rest of the text, or with `none` if the text is
malformed. Arrays may go over several lines; tables between braces may not.
-/

namespace PlaybookLint.Toml

/-! ### Blanks -/

/-- The text without the blanks that it begins with. -/
def dropBlanks (cs : List Char) : List Char :=
  cs.dropWhile fun c => c = ' ' || c = '\t'

/-- The text after a comment, if it begins with one. -/
def dropComment : List Char → List Char
  | '#' :: cs => cs.dropWhile isLineChar
  | cs => cs

/-- The text after the end of a statement, where only a comment may still stand on the line. -/
def endStatement? (cs : List Char) : Option (List Char) :=
  match dropComment (dropBlanks cs) with
  | [] => some []
  | rest => dropLineEnd? rest

/-- The text without the blanks, comments and line ends that it begins with; `fuel` bounds their
number. -/
def dropGap (fuel : Nat) (cs : List Char) : List Char :=
  match fuel with
  | 0 => cs
  | fuel + 1 =>
    let rest := dropComment (dropBlanks cs)
    match dropLineEnd? rest with
    | some rest => dropGap fuel rest
    | none => rest

/-! ### Keys -/

/-- A character that can stand in a key without quotes. -/
def isKeyChar (c : Char) : Bool :=
  c.isAlphanum || c = '_' || c = '-'

/-- Reads one part of a key. -/
def readKeyPart? : List Char → Option (String × List Char)
  | [] => none
  | c :: rest =>
    if c = '"' || c = '\'' then
      (readText? c rest).map fun (text, rest) => (String.ofList text, rest)
    else
      let (name, rest) := (c :: rest).span isKeyChar
      if name.isEmpty then none else some (String.ofList name, rest)

/-- Reads a dotted key, and the blanks around its parts; `fuel` bounds the number of parts. -/
def readKey? : (fuel : Nat) → List Char → Option (List String × List Char)
  | 0, _ => none
  | fuel + 1, cs => do
    let (part, rest) ← readKeyPart? (dropBlanks cs)
    match dropBlanks rest with
    | '.' :: rest =>
      let (parts, rest) ← readKey? fuel rest
      return (part :: parts, rest)
    | rest => return ([part], rest)

/-- How many parts a key may have. -/
def maxKeyParts : Nat := 79

/-- The path and the last part of a key. -/
def cutKey (parts : List String) : List String × String :=
  (parts.dropLast, parts.getLastD "")

/-! ### Values -/

/-- Reads a text in any kind of quotes after the first one. -/
def readString? (quote : Char) (cs : List Char) : Option (Item × List Char) :=
  let result := match cs with
    | c :: d :: rest =>
      if c = quote && d = quote then readLongText? quote rest else readText? quote cs
    | cs => readText? quote cs
  result.map fun (text, rest) => (.string (String.ofList text), rest)

/-- How deeply values may nest. -/
def maxDepth : Nat := 79

mutual

/-- Reads a value. `depth` bounds how deeply values still may nest in it, and `fuel` the number of
steps. -/
def readValue? : (fuel depth : Nat) → List Char → Option (Item × List Char)
  | 0, _, _ => none
  | fuel + 1, depth, cs =>
    match cs with
    | '"' :: rest => readString? '"' rest
    | '\'' :: rest => readString? '\'' rest
    | '[' :: rest =>
      match depth with
      | 0 => none
      | depth + 1 =>
        (readArray? fuel depth rest).map fun (items, rest) => (.array items, rest)
    | '\x7b' :: rest =>
      match depth with
      | 0 => none
      | depth + 1 =>
        match dropBlanks rest with
        | '\x7d' :: rest => some (.table .closed [], rest)
        | rest =>
          (readEntries? fuel depth ⟨.closed, []⟩ rest).map fun (table, rest) =>
            (.table .closed table.entries, rest)
    | cs => readLiteral? cs

/-- Reads the items of an array up to its closing bracket. -/
def readArray? : (fuel depth : Nat) → List Char → Option (List Item × List Char)
  | 0, _, _ => none
  | fuel + 1, depth, cs =>
    match dropGap cs.length cs with
    | ']' :: rest => some ([], rest)
    | cs => do
      let (item, rest) ← readValue? fuel depth cs
      match dropGap rest.length rest with
      | ',' :: rest =>
        let (items, rest) ← readArray? fuel depth rest
        return (item :: items, rest)
      | ']' :: rest => return ([item], rest)
      | _ => none

/-- Reads the entries of a table between braces up to the closing one, given those before. -/
def readEntries? : (fuel depth : Nat) → Table → List Char → Option (Table × List Char)
  | 0, _, _, _ => none
  | fuel + 1, depth, table, cs => do
    let (parts, rest) ← readKey? maxKeyParts cs
    match rest with
    | '=' :: rest =>
      let (item, rest) ← readValue? fuel depth (dropBlanks rest)
      let (path, key) := cutKey parts
      let table ← table.insert? path key item
      match dropBlanks rest with
      | ',' :: rest => readEntries? fuel depth table rest
      | '\x7d' :: rest => return (table, rest)
      | _ => none
    | _ => none

end

/-! ### Statements -/

/-- A file that has been read up to some place. -/
structure Reading where
  table : Table
  /-- The path of the last header. -/
  header : List String
  deriving Inhabited

/-- Reads a header after its opening bracket or brackets. -/
def readHeader? (r : Reading) (isList : Bool) (cs : List Char) : Option (Reading × List Char) := do
  let (parts, rest) ← readKey? maxKeyParts cs
  let (path, key) := cutKey parts
  match isList, rest with
  | true, ']' :: ']' :: rest => return (⟨← r.table.appendTable? path key, parts⟩, rest)
  | false, ']' :: rest => return (⟨← r.table.openTable? path key, parts⟩, rest)
  | _, _ => none

/-- Reads an entry of the table of the last header. -/
def readSetting? (r : Reading) (cs : List Char) : Option (Reading × List Char) := do
  let (parts, rest) ← readKey? maxKeyParts cs
  match rest with
  | '=' :: rest =>
    let (item, rest) ← readValue? (rest.length + 1) maxDepth (dropBlanks rest)
    let (path, key) := cutKey parts
    return (⟨← r.table.insertUnder? r.header path key item, r.header⟩, rest)
  | _ => none

/-- Reads a statement that is not empty. -/
def readStatement? (r : Reading) : List Char → Option (Reading × List Char)
  | '[' :: '[' :: rest => readHeader? r true rest
  | '[' :: rest => readHeader? r false rest
  | cs => readSetting? r cs

/-- Reads all statements; `fuel` bounds their number. -/
def readAll? : (fuel : Nat) → Reading → List Char → Option Reading
  | 0, _, _ => none
  | fuel + 1, r, cs =>
    match dropGap cs.length cs with
    | [] => some r
    | cs => do
      let (r, rest) ← readStatement? r cs
      readAll? fuel r (← endStatement? rest)

/-- The text without a mark of its byte order. -/
def dropByteOrderMark : List Char → List Char
  | '\uFEFF' :: cs => cs
  | cs => cs

/-- The table that a text spells. -/
def Table.read? (text : String) : Option Table :=
  let cs := dropByteOrderMark text.toList
  (readAll? (cs.length + 1) ⟨.empty, []⟩ cs).map Reading.table

end PlaybookLint.Toml
