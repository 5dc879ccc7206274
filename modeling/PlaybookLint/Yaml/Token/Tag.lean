import PlaybookLint.Yaml.Basic

/-!
# Anchors, tags and directives

What is written with `&`, `*`, `!` and `%`. Of a tag only the handle is kept: it decides whether the
tag has been declared, and nothing else about tags is looked at.
-/

namespace PlaybookLint.Yaml

/-- The character that opens a text as a byte order mark. -/
def byteOrderMark : Char := '\ufeff'

/-- A character that may stand in the name of an anchor. -/
def isAnchorChar (c : Char) : Bool :=
  !isBreak c && !isSpaceOrTab c && !isFlowIndicator c && c != byteOrderMark

/-- Reads the name after `&` or `*`. -/
def readAnchor (c : Cursor) : Except Error (String × Cursor) := do
  let (name, next) := (c.skip 1).takeWhile isAnchorChar
  if name.isEmpty then
    c.fail .emptyAnchor
  return (String.ofList name, next)

/-- A character that may stand in a URI. -/
def isUriChar (c : Char) : Bool :=
  c.isAlphanum || c == '-' || "#;/?:@&=+$,_.!~*'()[]%".contains c

/-- A character that may stand in a tag after its handle. -/
def isTagChar (c : Char) : Bool :=
  isUriChar c && !isFlowIndicator c && c != '!'

/-- How many bytes a character takes whose first byte is given. -/
def byteCount (byte : Nat) : Option Nat :=
  if byte < 0x80 then some 1
  else if 0xC0 ≤ byte ∧ byte < 0xE0 then some 2
  else if 0xE0 ≤ byte ∧ byte < 0xF0 then some 3
  else if 0xF0 ≤ byte ∧ byte < 0xF8 then some 4
  else none

/-- Reads URI characters that satisfy `p` up to the first that does not, checking each escape `%xx`:
`pending` is the number of bytes that the escaped character still needs and `code` the bytes it has,
read as one number, which must be a code point. -/
def uriText (p : Char → Bool) : (pending code : Nat) → List Char → Nat → Option (Nat × List Char)
  | pending, code, '%' :: a :: b :: cs, n =>
    if p '%' then do
      let byte := (← Text.hexValue? a) * 16 + (← Text.hexValue? b)
      match pending with
      | 0 =>
        let count ← byteCount byte
        uriText p (count - 1) byte cs (n + 3)
      | pending + 1 =>
        if byte < 0x80 ∨ 0xC0 ≤ byte then none
        else
          let code := code * 256 + byte
          if pending = 0 ∧ !code.isValidChar then none
          else uriText p pending code cs (n + 3)
    else if pending = 0 then some (n, '%' :: a :: b :: cs) else none
  | pending, code, c :: cs, n =>
    if pending ≠ 0 ∨ (c = '%' ∧ p c) then none
    else if p c then uriText p 0 code cs (n + 1)
    else some (n, c :: cs)
  | pending, _, [], n => if pending = 0 then some (n, []) else none

/-- Passes URI characters that satisfy `p`, and counts them. -/
def skipUri (p : Char → Bool) (c : Cursor) : Except Error (Nat × Cursor) :=
  match uriText p 0 0 c.rest 0 with
  | some (n, rest) => .ok (n, ⟨rest, c.mark.advance n⟩)
  | none => c.fail .badTag

/-- Reads a handle: `!`, or `!` and a name, with or without a closing `!`. -/
def readHandle (c : Cursor) : Except Error (String × Cursor) :=
  if c.peek = some '!' then
    let (name, next) := (c.skip 1).takeWhile isHandleChar
    if next.peek = some '!' then .ok (String.ofList ('!' :: name ++ ['!']), next.skip 1)
    else .ok (String.ofList ('!' :: name), next)
  else
    c.fail .badTag

/-- Whether a handle is closed, so that it stands for a declared beginning of a tag. -/
def isClosedHandle (handle : String) : Bool :=
  2 ≤ handle.length && handle.endsWith "!"

/-- Reads a tag, and gives the handle that it uses: empty for a verbatim tag and for a lone `!`. -/
def readTag (inFlow : Bool) (c : Cursor) : Except Error (String × Cursor) := do
  let (handle, next) ←
    if (c.skip 1).peek = some '<' then do
      let (_, next) ← skipUri isUriChar (c.skip 2)
      if next.peek ≠ some '>' then
        c.fail .badTag
      pure ("", next.skip 1)
    else do
      let (handle, next) ← readHandle c
      let (n, next) ← skipUri isTagChar next
      if isClosedHandle handle then
        if n = 0 then
          c.fail .badTag
        pure (handle, next)
      else if handle = "!" && n = 0 then
        pure ("", next)
      else
        pure ("!", next)
  if endsWord next.peek || (inFlow && startsFlow next.peek) then
    return (handle, next)
  else
    c.fail .badTag

/-- Reads a version number after `%YAML`: at most nine digits. -/
def readVersionNumber (c : Cursor) : Except Error Cursor := do
  let (digits, next) := c.takeWhile Char.isDigit
  if digits.isEmpty || digits.length > 9 then
    c.fail .badDirective
  return next

/-- What a directive says. -/
inductive Directive where
  | version
  | tag (handle : String)
  deriving Repr, DecidableEq, Inhabited

/-- Reads the handle and the beginning of tags that `%TAG` declares. -/
def readTagDirective (c : Cursor) : Except Error (Directive × Cursor) := do
  let (_, c') := c.takeWhile isSpaceOrTab
  let (handle, c') ← readHandle c'
  if !(isClosedHandle handle || handle = "!") then
    c.fail .badDirective
  let (_, c') := c'.takeWhile isSpaceOrTab
  let (n, c') ←
    if c'.peek = some '!' then do
      let (n, c') ← skipUri isUriChar (c'.skip 1)
      pure (n + 1, c')
    else if c'.peek.any isTagChar then
      skipUri isUriChar c'
    else
      pure (0, c')
  if n = 0 || !endsWord c'.peek then
    c.fail .badDirective
  return (.tag handle, c')

/-- Reads a directive and the rest of its line. An unknown directive is passed over; it declares the
empty handle. -/
def readDirective (c : Cursor) : Except Error (Directive × Cursor) := do
  let (name, c') := (c.skip 1).takeWhile isHandleChar
  if name.isEmpty || !endsWord c'.peek then
    c.fail .badDirective
  let (directive, c') ←
    if name = "YAML".toList then do
      let c' ← readVersionNumber (c'.takeWhile isSpaceOrTab).2
      if c'.peek ≠ some '.' then
        c.fail .badDirective
      let c' ← readVersionNumber (c'.skip 1)
      pure (.version, c')
    else if name = "TAG".toList then
      readTagDirective c'
    else
      pure (.tag "", (c'.takeWhile fun ch => !isBreak ch).2)
  let (_, c') ← skipBlanks true c'
  if !endsLine c'.peek then
    c.fail .badDirective
  return (directive, c'.skipBreak)

end PlaybookLint.Yaml
