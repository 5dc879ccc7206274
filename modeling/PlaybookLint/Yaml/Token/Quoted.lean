import PlaybookLint.Yaml.Basic

/-!
# Quoted scalars

A quoted scalar ends at its closing quote, on whatever line. Line breaks inside it fold as in plain
scalars. In single quotes a quote is written twice; in double quotes a backslash starts an escape
sequence, and a backslash at the end of a line joins the line to the next one.
-/

namespace PlaybookLint.Yaml

/-- The two kinds of quotes. -/
inductive Quote where
  | single
  | double
  deriving Repr, DecidableEq, Inhabited

/-- The character that opens and closes a quoted scalar. -/
def Quote.char : Quote → Char
  | .single => '\''
  | .double => '"'

/-- The blanks and line breaks since the last character that is neither. -/
inductive QuotedGap where
  /-- Blanks on one line, last first. -/
  | blanks (blanks : List Char)
  /-- Line breaks, and blanks that add nothing. -/
  | folded (breaks : Nat)
  /-- An escaped line break, which adds nothing, and the line breaks that follow it. -/
  | joined (breaks : Nat)
  deriving Repr

namespace QuotedGap

/-- Passes a line break. -/
def nextLine : QuotedGap → QuotedGap
  | .blanks _ => .folded 1
  | .folded n => .folded (n + 1)
  | .joined n => .joined (n + 1)

/-- What the gap reads as, last character first. -/
def text : QuotedGap → List Char
  | .blanks bs => bs
  | .folded n => if n = 1 then [' '] else List.replicate (n - 1) '\n'
  | .joined n => List.replicate n '\n'

end QuotedGap

/-- Where the reader of a quoted scalar stands. -/
inductive QuotedPlace where
  /-- Among characters that are not blank. -/
  | text
  | gap (gap : QuotedGap)
  /-- After a backslash. -/
  | escape
  /-- Before the last `digits + 1` digits of an escape sequence, the earlier ones having the given
  value. -/
  | code (digits : Nat) (value : Nat)
  /-- After a single quote inside single quotes that is known to be doubled. -/
  | doubled
  deriving Repr

/-- A quoted scalar as far as it has been read: the position, and the characters read, last first.
-/
structure QuotedText where
  mark : Mark
  text : List Char
  deriving Repr

/-- The character that an escape of one letter stands for. -/
def simpleEscape : Char → Option Char
  | '0' => some '\x00'
  | 'a' => some '\x07'
  | 'b' => some '\x08'
  | 't' => some '\t'
  | '\t' => some '\t'
  | 'n' => some '\n'
  | 'v' => some '\x0b'
  | 'f' => some '\x0c'
  | 'r' => some '\r'
  | 'e' => some '\x1b'
  | ' ' => some ' '
  | '"' => some '"'
  | '/' => some '/'
  | '\\' => some '\\'
  | 'N' => some '\u0085'
  | '_' => some '\u00a0'
  | 'L' => some '\u2028'
  | 'P' => some '\u2029'
  | _ => none

/-- How many hexadecimal digits follow the letter of an escape by code point. -/
def escapeDigits : Char → Option Nat
  | 'x' => some 2
  | 'u' => some 4
  | 'U' => some 8
  | _ => none

/-- Whether a line of a quoted scalar may start with this text: no document marker, and enough
indentation. -/
def checkQuotedLine (indent : Int) (cs : List Char) (mark : Mark) : Except Error Unit :=
  if mark.column = 0 && startsWithDocumentMarker cs then .error ⟨mark, .unclosedQuote⟩
  else if (mark.column : Int) < indent then .error ⟨mark, .badIndentation⟩
  else .ok ()

/-- Reads on in a quoted scalar, up to and including its closing quote. -/
def quotedText (quote : Quote) (indent : Int) :
    QuotedPlace → List Char → QuotedText → Except Error (QuotedText × List Char)
  | _, [], q => .error ⟨q.mark, .unclosedQuote⟩
  | place, '\r' :: '\n' :: cs, q =>
    let next : QuotedText := ⟨q.mark.nextLine 2, q.text⟩
    match place with
    | .escape => quotedText quote indent (.gap (.joined 0)) cs next
    | .gap g => quotedText quote indent (.gap g.nextLine) cs next
    | .code .. => .error ⟨q.mark, .badEscape⟩
    | _ => quotedText quote indent (.gap (.folded 1)) cs next
  | place, c :: cs, q =>
    let next : QuotedText := ⟨q.mark.advance 1, q.text⟩
    let nextLine : QuotedText := ⟨q.mark.nextLine 1, q.text⟩
    match place with
    | .doubled => quotedText quote indent .text cs ⟨next.mark, c :: q.text⟩
    | .code digits value =>
      match Text.hexValue? c with
      | none => .error ⟨q.mark, .badEscape⟩
      | some d =>
        let value := value * 16 + d
        match digits with
        | digits + 1 => quotedText quote indent (.code digits value) cs next
        | 0 =>
          match Text.charOfCode? value with
          | some ch => quotedText quote indent .text cs ⟨next.mark, ch :: q.text⟩
          | none => .error ⟨q.mark, .badEscape⟩
    | .escape =>
      if isBreak c then
        quotedText quote indent (.gap (.joined 0)) cs nextLine
      else
        match simpleEscape c, escapeDigits c with
        | some ch, _ => quotedText quote indent .text cs ⟨next.mark, ch :: q.text⟩
        | none, some n => quotedText quote indent (.code (n - 1) 0) cs next
        | none, none => .error ⟨q.mark, .badEscape⟩
    | .text =>
      if isBreak c then
        quotedText quote indent (.gap (.folded 1)) cs nextLine
      else if isSpaceOrTab c then
        quotedText quote indent (.gap (.blanks [c])) cs next
      else if c = quote.char then
        if quote = .single && cs.head? = some '\'' then quotedText quote indent .doubled cs next
        else .ok (next, cs)
      else if quote = .double && c = '\\' then
        quotedText quote indent .escape cs next
      else
        quotedText quote indent .text cs ⟨next.mark, c :: q.text⟩
    | .gap g =>
      if isBreak c then
        quotedText quote indent (.gap g.nextLine) cs nextLine
      else if isSpaceOrTab c then
        match g with
        | .blanks bs => quotedText quote indent (.gap (.blanks (c :: bs))) cs next
        | g =>
          if c = '\t' && decide ((q.mark.column : Int) < indent) then
            .error ⟨q.mark, .tabInIndentation⟩
          else quotedText quote indent (.gap g) cs next
      else
        let read := g.text ++ q.text
        match checkQuotedLine indent (c :: cs) q.mark with
        | .error e => .error e
        | .ok () =>
          if c = quote.char then
            if quote = .single && cs.head? = some '\'' then
              quotedText quote indent .doubled cs ⟨next.mark, read⟩
            else
              .ok (⟨next.mark, read⟩, cs)
          else if quote = .double && c = '\\' then
            quotedText quote indent .escape cs ⟨next.mark, read⟩
          else
            quotedText quote indent .text cs ⟨next.mark, c :: read⟩

/-- Reads a quoted scalar whose opening quote is the next character. -/
def readQuoted (quote : Quote) (indent : Int) (c : Cursor) : Except Error (String × Cursor) := do
  let body := c.skip 1
  let (q, rest) ← quotedText quote indent .text body.rest ⟨body.mark, []⟩
  return (String.ofList q.text.reverse, ⟨rest, q.mark⟩)

end PlaybookLint.Yaml
