import Mathlib.Data.List.Forall2
import PlaybookLint.Json
import PlaybookLint.Proofs.Words

/-!
# What a program reads in a JSON document

A reader of JSON takes the characters of a document one by one. Characters make up tokens, and a
token goes on with the innermost collection that is open, or ends it. A value that was printed over
several lines is read as itself, whatever stands in its strings and however it is nested.

## Main definitions

* `Token`, `Lexeme` - a token, and what has been read of one.
* `Opened`, `Place` - a collection that is open, and where a reader stands among values.
* `Reading` - where a reader of characters stands.
* `read?` - the value that a text is read as.
* `IsRead` - a text is read as a value wherever one may begin.
* `Collection` - arrays and objects alike, by what is read of them piece by piece.

## Main statements

* `readFrom_escapeChar` - a character in a string is read as it was written.
* `Collection.isRead_bracket` - a collection is read if its elements are.
* `isRead_prettyAt` - a printed value is read wherever a value may begin.
* `read?_pretty` - a printed value is read as itself.
-/

namespace PlaybookLint.Json

/-! ### Tokens -/

/-- The parts that documents are made of. -/
inductive Token where
  | number (n : Nat)
  | text (text : String)
  | comma
  | colon
  | openArray
  | closeArray
  | openObject
  | closeObject
  deriving DecidableEq

/-- The tokens that are one character. -/
def signs : List (Char × Token) :=
  [(',', .comma), (':', .colon), ('[', .openArray), (']', .closeArray), ('\x7b', .openObject),
    ('\x7d', .closeObject)]

/-- The characters that a letter behind a backslash can stand for. -/
def escapes : List (Char × Char) :=
  [('"', '"'), ('\\', '\\'), ('/', '/'), ('b', '\x08'), ('f', '\x0c'), ('n', '\n'), ('r', '\r'),
    ('t', '\t')]

/-- A character that may stand between tokens. -/
def isGap (c : Char) : Bool :=
  c = ' ' || c = '\n' || c = '\r' || c = '\t'

/-- What has been read of a token. -/
inductive Lexeme where
  /-- Nothing. -/
  | none
  /-- The first digits of a number, with their value. -/
  | digits (n : Nat)
  /-- The first characters of a string. -/
  | text (done : List Char)
  /-- The same, and a backslash. -/
  | escape (done : List Char)
  /-- The same, and a backslash with `u` and the first digits of the number of a character. -/
  | code (done : List Char) (digits : List Char)

namespace Lexeme

/-- What a character outside all tokens is or begins. -/
def begin? (c : Char) : Option (List Token × Lexeme) :=
  if isGap c then some ([], .none)
  else if c = '"' then some ([], .text [])
  else if c.isDigit then some ([], .digits (c.toNat - '0'.toNat))
  else (signs.lookup c).map fun token => ([token], .none)

/-- The tokens that end before or with the next character, and what has been read then. -/
def next? : Lexeme → Char → Option (List Token × Lexeme)
  | .none, c => begin? c
  | .digits n, c =>
    if c.isDigit then some ([], .digits (10 * n + (c.toNat - '0'.toNat)))
    else (begin? c).map fun next => (.number n :: next.1, next.2)
  | .text done, c =>
    if c = '"' then some ([.text (String.ofList done)], .none)
    else if c = '\\' then some ([], .escape done)
    else if c.toNat < 32 then .none
    else some ([], .text (done ++ [c]))
  | .escape done, c =>
    if c = 'u' then some ([], .code done [])
    else (escapes.lookup c).map fun d => ([], .text (done ++ [d]))
  | .code done read, c =>
    if !Text.isHexDigit c then .none
    else if read.length < 3 then some ([], .code done (read ++ [c]))
    else (Text.charOfCode? (Text.hexNumber (read ++ [c]))).map fun d => ([], .text (done ++ [d]))

/-- The token that ends with the text. -/
def last? : Lexeme → Option (List Token)
  | .none => some []
  | .digits n => some [.number n]
  | _ => .none

end Lexeme

/-! ### Values -/

/-- A collection that is open, with what stands before the value that is read. -/
inductive Opened where
  | array (items : List Json)
  | object (members : List (String × Json)) (name : String)

/-- Where a reader stands among values, with the collections that are open, innermost first. -/
inductive Place where
  /-- A value is due. -/
  | value (opened : List Opened)
  /-- An array has just begun. -/
  | items (opened : List Opened)
  /-- An object has just begun. -/
  | members (opened : List Opened)
  /-- The name of one more member is due. -/
  | name (members : List (String × Json)) (opened : List Opened)
  /-- The colon behind the name of a member is due. -/
  | colon (members : List (String × Json)) (name : String) (opened : List Opened)
  /-- A value has been read. -/
  | after (value : Json) (opened : List Opened)

namespace Place

/-- A value begins inside some collections. -/
def begin? (opened : List Opened) : Token → Option Place
  | .number n => some (.after (.number n) opened)
  | .text text => some (.after (.string text) opened)
  | .openArray => some (.items opened)
  | .openObject => some (.members opened)
  | _ => none

/-- A value that has been read is followed by a token. -/
def resume? (v : Json) : List Opened → Token → Option Place
  | .array before :: opened, .comma => some (.value (.array (before ++ [v]) :: opened))
  | .array before :: opened, .closeArray => some (.after (.array (before ++ [v])) opened)
  | .object before key :: opened, .comma => some (.name (before ++ [(key, v)]) opened)
  | .object before key :: opened, .closeObject =>
    some (.after (.object (before ++ [(key, v)])) opened)
  | _, _ => none

/-- Where a reader stands after one more token. -/
def take? : Place → Token → Option Place
  | .value opened, token => begin? opened token
  | .items opened, token =>
    if token = .closeArray then some (.after (.array []) opened)
    else begin? (.array [] :: opened) token
  | .members opened, .closeObject => some (.after (.object []) opened)
  | .members opened, .text key => some (.colon [] key opened)
  | .name before opened, .text key => some (.colon before key opened)
  | .colon before key opened, .colon => some (.value (.object before key :: opened))
  | .after v opened, token => resume? v opened token
  | _, _ => none

/-- The value of the document, if it ends here. -/
def value? : Place → Option Json
  | .after v [] => some v
  | _ => none

end Place

/-! ### Characters -/

/-- Where a reader of characters stands. -/
structure Reading where
  lexeme : Lexeme
  place : Place

namespace Reading

/-- Where a reader stands after one more character. -/
def next? (r : Reading) (c : Char) : Option Reading :=
  (r.lexeme.next? c).bind fun next =>
    (next.1.foldlM Place.take? r.place).map fun place => ⟨next.2, place⟩

/-- The value of the document, if it ends here. -/
def value? (r : Reading) : Option Json :=
  r.lexeme.last?.bind fun tokens => (tokens.foldlM Place.take? r.place).bind Place.value?

end Reading

/-- The value of a document of which `r` has been read. -/
def readFrom (r : Reading) : List Char → Option Json
  | [] => r.value?
  | c :: cs => (r.next? c).bind fun next => readFrom next cs

/-- The value that a text is read as. -/
def read? (cs : List Char) : Option Json :=
  readFrom ⟨.none, .value []⟩ cs

/-! ### Where a reader stands -/

namespace Place

/-- A value may begin where a reader stands, inside some collections. -/
def Awaits (p : Place) (opened : List Opened) : Prop :=
  ∀ token ≠ .closeArray, p.take? token = begin? opened token

theorem awaits_value (opened : List Opened) : (Place.value opened).Awaits opened :=
  fun _ _ => rfl

theorem awaits_items (opened : List Opened) : (Place.items opened).Awaits (.array [] :: opened) :=
  fun _ h => if_neg h

/-- The name of a member may stand where a reader stands, inside some collections. -/
def AwaitsName (p : Place) (before : List (String × Json)) (opened : List Opened) : Prop :=
  ∀ key, p.take? (.text key) = some (.colon before key opened)

theorem awaitsName_members (opened : List Opened) : (Place.members opened).AwaitsName [] opened :=
  fun _ => rfl

theorem awaitsName_name (before : List (String × Json)) (opened : List Opened) :
    (Place.name before opened).AwaitsName before opened :=
  fun _ => rfl

end Place

/-- A text does not go on with a number that ends before it. -/
def EndsNumber (rest : List Char) : Prop :=
  ∀ c ∈ rest.head?, c.isDigit = false

theorem endsNumber_cons {c : Char} (h : c.isDigit = false) (cs : List Char) :
    EndsNumber (c :: cs) := by
  intro d hd
  cases hd
  exact h

section Reading

variable {p : Place} {opened : List Opened} {rest : List Char}

/-! ### Reading tokens -/

theorem readFrom_gap {gap : List Char} (h : gap.all isGap = true) :
    readFrom ⟨.none, p⟩ (gap ++ rest) = readFrom ⟨.none, p⟩ rest := by
  induction gap with
  | nil => rfl
  | cons c gap ih =>
      rw [List.all_cons, Bool.and_eq_true] at h
      rw [List.cons_append, readFrom, ← ih h.2]
      simp [Reading.next?, Lexeme.next?, Lexeme.begin?, h.1]

/-- A character that is a token of its own is taken as that. -/
theorem readFrom_sign {c : Char} (token : Token) (h : Lexeme.begin? c = some ([token], .none)) :
    readFrom ⟨.none, p⟩ (c :: rest) =
      (p.take? token).bind fun place => readFrom ⟨.none, place⟩ rest := by
  cases htake : p.take? token <;> simp [readFrom, Reading.next?, Lexeme.next?, h, htake]

/-- A digit begins a number. -/
theorem Lexeme.begin?_of_isDigit {c : Char} (h : c.isDigit = true) :
    begin? c = some ([], .digits (c.toNat - '0'.toNat)) := by
  have hgap : isGap c = false := by
    by_contra hgap
    simp only [isGap, Bool.not_eq_false, Bool.or_eq_true, decide_eq_true_eq] at hgap
    rcases hgap with ((rfl | rfl) | rfl) | rfl <;> exact absurd h (by decide)
  have hquote : c ≠ '"' := by
    rintro rfl
    exact absurd h (by decide)
  simp [begin?, hgap, hquote, h]

theorem readFrom_digits (hp : p.Awaits opened) (hrest : EndsNumber rest) (n : Nat)
    {digits : List Char} (h : ∀ c ∈ digits, c.isDigit = true) :
    readFrom ⟨.digits n, p⟩ (digits ++ rest) =
      readFrom ⟨.none, .after (.number
        (digits.foldl (fun n c => 10 * n + (c.toNat - '0'.toNat)) n)) opened⟩ rest := by
  induction digits generalizing n with
  | nil =>
      have htake : ∀ m, p.take? (.number m) = some (.after (.number m) opened) :=
        fun m => hp (.number m) (by simp)
      cases rest with
      | nil => simp [readFrom, Reading.value?, Lexeme.last?, htake]
      | cons c rest =>
          have hc : c.isDigit = false := hrest c rfl
          cases hbegin : Lexeme.begin? c <;>
            simp [readFrom, Reading.next?, Lexeme.next?, hc, htake, hbegin]
  | cons c digits ih =>
      obtain ⟨hc, hlater⟩ := List.forall_mem_cons.mp h
      rw [List.cons_append, readFrom, List.foldl_cons, ← ih _ hlater]
      simp [Reading.next?, Lexeme.next?, hc]

theorem readFrom_number (hp : p.Awaits opened) (hrest : EndsNumber rest) (n : Nat) :
    readFrom ⟨.none, p⟩ ((toString n).toList ++ rest) =
      readFrom ⟨.none, .after (.number n) opened⟩ rest := by
  obtain ⟨c, digits, hdigits⟩ := List.exists_cons_of_ne_nil (Text.toString_ne_nil n)
  have hall : ∀ d ∈ c :: digits, d.isDigit = true := by
    intro d hd
    exact Text.isDigit_of_mem_toString (hdigits ▸ hd)
  obtain ⟨hc, hlater⟩ := List.forall_mem_cons.mp hall
  have hvalue := Text.digitsValue_toString n
  rw [hdigits, Text.digitsValue, List.foldl_cons, Nat.mul_zero, Nat.zero_add] at hvalue
  rw [hdigits, List.cons_append, readFrom, Reading.next?, Lexeme.next?,
    Lexeme.begin?_of_isDigit hc]
  refine (readFrom_digits hp hrest _ hlater).trans ?_
  rw [hvalue]

/-! ### Reading strings -/

/-- The number of a control character. -/
theorem fourDigits_eq : ∀ n < 32, ∃ a b, (fourDigits n).toList = ['0', '0', a, b] ∧
    Text.isHexDigit a = true ∧ Text.isHexDigit b = true ∧
    Text.hexNumber ['0', '0', a, b] = n := by
  intro n hn
  refine ⟨Nat.digitChar (n / 16), Nat.digitChar (n % 16), ?_⟩
  revert n
  decide

theorem charOfCode?_toNat (c : Char) : Text.charOfCode? c.toNat = some c := by
  rw [Text.charOfCode?, if_pos (show c.toNat.isValidChar from c.valid), Char.ofNat_toNat]

/-- **A character in a string is read** as it was written. -/
theorem readFrom_escapeChar (done : List Char) (c : Char) :
    readFrom ⟨.text done, p⟩ ((escapeChar c).toList ++ rest) =
      readFrom ⟨.text (done ++ [c]), p⟩ rest := by
  unfold escapeChar
  split_ifs with hquote hslash hfeed hreturn htab hback hform hcontrol
  · subst hquote
    rfl
  · subst hslash
    rfl
  · subst hfeed
    rfl
  · subst hreturn
    rfl
  · subst htab
    rfl
  · subst hback
    rfl
  · subst hform
    rfl
  · obtain ⟨a, b, hdigits, ha, hb, hnumber⟩ := fourDigits_eq c.toNat hcontrol
    have hzero : Text.isHexDigit '0' = true := by decide
    have hchar : Text.charOfCode? (Text.hexNumber ['0', '0', a, b]) = some c := by
      rw [hnumber, charOfCode?_toNat]
    rw [String.toList_append, hdigits]
    simp [readFrom, Reading.next?, Lexeme.next?, hzero, ha, hb, hchar]
  · simp [readFrom, Reading.next?, Lexeme.next?, hquote, hslash, hcontrol]

theorem readFrom_quote (text : String) :
    readFrom ⟨.none, p⟩ ((quote text).toList ++ rest) =
      (p.take? (.text text)).bind fun place => readFrom ⟨.none, place⟩ rest := by
  have htext : ∀ done cs : List Char, readFrom ⟨.text done, p⟩
      ((String.join (cs.map escapeChar)).toList ++ '"' :: rest) =
        readFrom ⟨.text (done ++ cs), p⟩ ('"' :: rest) := by
    intro done cs
    induction cs generalizing done with
    | nil => simp
    | cons c cs ih =>
        rw [List.map_cons, String.join_cons, String.toList_append, List.append_assoc,
          readFrom_escapeChar, ih, List.append_assoc, List.singleton_append]
  have hopen : readFrom ⟨.none, p⟩ ((quote text).toList ++ rest) = readFrom ⟨.text [], p⟩
      ((String.join (text.toList.map escapeChar)).toList ++ '"' :: rest) := by
    simp [quote, readFrom, Reading.next?, Lexeme.next?, Lexeme.begin?, isGap]
  rw [hopen, htext]
  cases htake : p.take? (.text text) <;> simp [readFrom, Reading.next?, Lexeme.next?, htake]

/-! ### Reading collections -/

/-- A text is read as a value wherever a value may begin. -/
def IsRead (text : String) (v : Json) : Prop :=
  ∀ (p : Place) (opened : List Opened) (rest : List Char), p.Awaits opened → EndsNumber rest →
    readFrom ⟨.none, p⟩ (text.toList ++ rest) = readFrom ⟨.none, .after v opened⟩ rest

/-- The beginning of a line of its own. -/
def lineStart (depth : Nat) : List Char :=
  '\n' :: (indentation depth).toList

theorem isGap_lineStart (depth : Nat) : (lineStart depth).all isGap = true := by
  simp [lineStart, indentation, Text.toList_pushn, isGap]

theorem endsNumber_lineStart (depth : Nat) (cs : List Char) : EndsNumber (lineStart depth ++ cs) :=
  endsNumber_cons (by decide) _

theorem toList_bracket_nil (left right : String) (depth : Nat) :
    (bracket left right depth []).toList = left.toList ++ right.toList :=
  String.toList_append

theorem toList_bracket_cons (left right : String) (depth : Nat) (line : String)
    (lines : List String) :
    (bracket left right depth (line :: lines)).toList =
      left.toList ++ (lineStart (depth + 1) ++ ((',' :: lineStart (depth + 1)).intercalate
        ((line :: lines).map String.toList) ++ (lineStart depth ++ right.toList))) := by
  simp [bracket, lineStart, String.toList_intercalate]

/-- A kind of collections with elements of some type, and how they are read. -/
structure Collection (α : Type) where
  left : String
  right : String
  value : List α → Json
  /-- A text is read as an element. -/
  Reads : String → α → Prop
  /-- One more element may stand where a reader stands, behind some others. -/
  Awaits : List Opened → List α → Place → Prop
  /-- Where a reader stands behind an element. -/
  after : List Opened → List α → α → Place
  read_left : ∀ {p : Place} {opened : List Opened} (rest : List Char), p.Awaits opened →
    ∃ begun, readFrom ⟨.none, p⟩ (left.toList ++ rest) = readFrom ⟨.none, begun⟩ rest ∧
      Awaits opened [] begun ∧ ∀ rest, readFrom ⟨.none, begun⟩ (right.toList ++ rest) =
        readFrom ⟨.none, .after (value []) opened⟩ rest
  read_element : ∀ {line : String} {x : α} {opened : List Opened} {before : List α} {p : Place}
    {rest : List Char}, Reads line x → Awaits opened before p → EndsNumber rest →
    readFrom ⟨.none, p⟩ (line.toList ++ rest) = readFrom ⟨.none, after opened before x⟩ rest
  read_comma : ∀ (opened : List Opened) (before : List α) (x : α) (rest : List Char),
    ∃ next, readFrom ⟨.none, after opened before x⟩ (',' :: rest) = readFrom ⟨.none, next⟩ rest ∧
      Awaits opened (before ++ [x]) next
  read_right : ∀ (opened : List Opened) (before : List α) (x : α) (rest : List Char),
    readFrom ⟨.none, after opened before x⟩ (right.toList ++ rest) =
      readFrom ⟨.none, .after (value (before ++ [x])) opened⟩ rest

namespace Collection

variable {α : Type} (c : Collection α)

/-- Elements that follow one another are read one by one, up to the end of their collection. -/
theorem readFrom_elements (inner outer : Nat) {line : String} {x : α} {lines : List String}
    {xs : List α} (hx : c.Reads line x) (hxs : List.Forall₂ c.Reads lines xs) {before : List α}
    (hp : c.Awaits opened before p) :
    readFrom ⟨.none, p⟩ ((',' :: lineStart inner).intercalate ((line :: lines).map String.toList) ++
      (lineStart outer ++ (c.right.toList ++ rest))) =
        readFrom ⟨.none, .after (c.value (before ++ x :: xs)) opened⟩ rest := by
  induction hxs generalizing line x p before with
  | nil =>
      rw [List.map_singleton, List.intercalate_singleton,
        c.read_element hx hp (endsNumber_lineStart outer _), readFrom_gap (isGap_lineStart outer),
        c.read_right]
  | @cons nextLine next lines xs hnext _ ih =>
      obtain ⟨place, hcomma, hplace⟩ := c.read_comma opened before x (lineStart inner ++
        ((',' :: lineStart inner).intercalate ((nextLine :: lines).map String.toList) ++
          (lineStart outer ++ (c.right.toList ++ rest))))
      rw [List.map_cons, List.map_cons, List.intercalate_cons_cons, ← List.map_cons,
        List.append_assoc, List.append_assoc, List.cons_append,
        c.read_element hx hp (endsNumber_cons (by decide) _), hcomma,
        readFrom_gap (isGap_lineStart inner), ih hnext hplace, List.append_assoc,
        List.singleton_append]

/-- **A collection is read** if its elements are. -/
theorem isRead_bracket {lines : List String} {xs : List α} (h : List.Forall₂ c.Reads lines xs)
    (depth : Nat) : IsRead (bracket c.left c.right depth lines) (c.value xs) := by
  intro p opened rest hp _
  cases h with
  | nil =>
      obtain ⟨begun, hleft, -, hright⟩ := c.read_left (c.right.toList ++ rest) hp
      rw [toList_bracket_nil, List.append_assoc, hleft, hright]
  | @cons line x lines xs hx hxs =>
      obtain ⟨begun, hleft, hbegun, -⟩ := c.read_left (lineStart (depth + 1) ++
        ((',' :: lineStart (depth + 1)).intercalate ((line :: lines).map String.toList) ++
          (lineStart depth ++ (c.right.toList ++ rest)))) hp
      rw [toList_bracket_cons, List.append_assoc, List.append_assoc, List.append_assoc,
        List.append_assoc, hleft, readFrom_gap (isGap_lineStart (depth + 1)),
        c.readFrom_elements _ _ hx hxs hbegun, List.nil_append]

end Collection

/-- Arrays, whose elements are values. -/
def arrays : Collection Json where
  left := "["
  right := "]"
  value := .array
  Reads := IsRead
  Awaits := fun opened before p => p.Awaits (.array before :: opened)
  after := fun opened before item => .after item (.array before :: opened)
  read_left := by
    intro p opened rest hp
    have hopening : p.take? .openArray = some (.items opened) := hp .openArray (by simp)
    refine ⟨.items opened, ?_, Place.awaits_items opened, fun rest => ?_⟩
    · show readFrom _ ('[' :: rest) = _
      rw [readFrom_sign .openArray (by rfl), hopening, Option.bind_some]
    · exact readFrom_sign .closeArray (by rfl)
  read_element := fun hitem hp hrest => hitem _ _ _ hp hrest
  read_comma := fun _ _ _ _ => ⟨_, readFrom_sign .comma (by rfl), Place.awaits_value _⟩
  read_right := fun _ _ _ _ => readFrom_sign .closeArray (by rfl)

/-- A text is read as a member wherever the name of one may stand. -/
def IsReadMember (text : String) (member : String × Json) : Prop :=
  ∃ value, text = quote member.1 ++ ": " ++ value ∧ IsRead value member.2

/-- A member is read as its name and its value. -/
theorem readFrom_member {line : String} {member : String × Json} (h : IsReadMember line member)
    {before : List (String × Json)} (hp : p.AwaitsName before opened) (hrest : EndsNumber rest) :
    readFrom ⟨.none, p⟩ (line.toList ++ rest) =
      readFrom ⟨.none, .after member.2 (.object before member.1 :: opened)⟩ rest := by
  obtain ⟨value, rfl, hvalue⟩ := h
  have hcolon : (Place.colon before member.1 opened).take? .colon =
      some (.value (.object before member.1 :: opened)) := rfl
  rw [String.toList_append, String.toList_append, List.append_assoc, List.append_assoc,
    readFrom_quote, hp member.1, Option.bind_some]
  show readFrom _ (':' :: ([' '] ++ _)) = _
  rw [readFrom_sign .colon (by rfl), hcolon, Option.bind_some, readFrom_gap (by decide)]
  exact hvalue _ _ _ (Place.awaits_value _) hrest

/-- Objects, whose elements are members. -/
def objects : Collection (String × Json) where
  left := "\x7b"
  right := "\x7d"
  value := .object
  Reads := IsReadMember
  Awaits := fun opened before p => p.AwaitsName before opened
  after := fun opened before member => .after member.2 (.object before member.1 :: opened)
  read_left := by
    intro p opened rest hp
    have hopening : p.take? .openObject = some (.members opened) := hp .openObject (by simp)
    refine ⟨.members opened, ?_, Place.awaitsName_members opened, fun rest => ?_⟩
    · show readFrom _ ('\x7b' :: rest) = _
      rw [readFrom_sign .openObject (by rfl), hopening, Option.bind_some]
    · exact readFrom_sign .closeObject (by rfl)
  read_element := fun hmember hp hrest => readFrom_member hmember hp hrest
  read_comma := fun _ _ _ _ => ⟨_, readFrom_sign .comma (by rfl), Place.awaitsName_name _ _⟩
  read_right := fun _ _ _ _ => readFrom_sign .closeObject (by rfl)

end Reading

/-! ### Reading what was printed -/

mutual

/-- **A printed value is read** wherever a value may begin. -/
theorem isRead_prettyAt (depth : Nat) : (v : Json) → IsRead (prettyAt depth v) v
  | .number n => fun _ _ _ hp hrest => readFrom_number hp hrest n
  | .string text => by
      intro p opened rest hp _
      rw [prettyAt, readFrom_quote, hp (.text text) (by simp)]
      rfl
  | .array items => arrays.isRead_bracket (isRead_prettyItems (depth + 1) items) depth
  | .object members => objects.isRead_bracket (isReadMember_prettyMembers (depth + 1) members) depth

theorem isRead_prettyItems (depth : Nat) : (items : List Json) →
    List.Forall₂ IsRead (prettyItems depth items) items
  | [] => .nil
  | item :: items => .cons (isRead_prettyAt depth item) (isRead_prettyItems depth items)

theorem isReadMember_prettyMembers (depth : Nat) : (members : List (String × Json)) →
    List.Forall₂ IsReadMember (prettyMembers depth members) members
  | [] => .nil
  | (_, value) :: members =>
      .cons ⟨_, rfl, isRead_prettyAt depth value⟩ (isReadMember_prettyMembers depth members)

end

/-- **A printed value is read as itself**, also if blanks and ends of lines follow it. -/
theorem read?_pretty (v : Json) {gap : List Char} (h : gap.all isGap = true) :
    read? ((pretty v).toList ++ gap) = some v := by
  have hrest : EndsNumber gap := by
    intro c hc
    have hgap := List.all_eq_true.mp h c (List.mem_of_mem_head? hc)
    simp only [isGap, Bool.or_eq_true, decide_eq_true_eq] at hgap
    rcases hgap with ((rfl | rfl) | rfl) | rfl <;> rfl
  rw [read?, pretty, isRead_prettyAt 0 v _ [] gap (Place.awaits_value []) hrest,
    ← List.append_nil gap, readFrom_gap h]
  rfl

end PlaybookLint.Json
