import PlaybookLint.Proofs.Words
import PlaybookLint.Report
import PlaybookLint.Text.Number

/-!
# What a build service reads

Annotations are read by a build service: line by line, each as the name of a command, some
properties and a text. What it reads is what the annotation was made of, whatever stands in the
texts, those included that look escaped already or that hold separators. In particular no text
begins another command.

## Main definitions

* `decoded` - a text in which characters may be given by their numbers.
* `Command`, `written`, `Command.read?` - a command, its text, and the reading of a text.
* `Command.Tells` - what a command tells about a finding.
* `replaced` - a text in which a character is replaced.

## Main statements

* `decoded_flatMap` - decoding undoes any way of escaping that it undoes for single characters.
* `escapeData_eq_replaced`, `escapeProperty_eq_replaced` - escaping is replacing the reserved
  characters one after the other, beginning with the sign of escapes.
* `Command.read?_written` - a command is read as it was written.
* `annotations_decode` - annotations are read as the findings that they were made of.
-/

namespace PlaybookLint.Report.Annotation

/-! ### Escapes -/

/-- The character that a sign of escapes stands for with the two characters behind it. -/
def escaped? (sign a b : Char) : Option Char :=
  if sign = '%' then
    (Text.hexValue? a).bind fun m => (Text.hexValue? b).bind fun n => Text.charOfCode? (16 * m + n)
  else none

/-- A text in which a `%` and two hexadecimal digits stand for the character with that number. -/
def decoded : List Char → List Char
  | c :: a :: b :: cs =>
    match escaped? c a b with
    | some d => d :: decoded cs
    | none => c :: decoded (a :: b :: cs)
  | c :: cs => c :: decoded cs
  | [] => []

/-- Only the sign of escapes does not stand for itself. -/
theorem decoded_cons {c : Char} (h : c ≠ '%') (cs : List Char) :
    decoded (c :: cs) = c :: decoded cs := by
  match cs with
  | [] => rfl
  | [a] => rfl
  | a :: b :: cs => simp [decoded, escaped?, h]

theorem decoded_eq_self {cs : List Char} (h : '%' ∉ cs) : decoded cs = cs := by
  induction cs with
  | nil => rfl
  | cons c cs ih =>
      obtain ⟨hc, hcs⟩ := not_or.mp (mt List.mem_cons.mpr h)
      rw [decoded_cons (Ne.symm hc), ih hcs]

theorem decoded_escape {a b d : Char} (h : escaped? '%' a b = some d) (cs : List Char) :
    decoded ('%' :: a :: b :: cs) = d :: decoded cs := by
  simp [decoded, h]

theorem decoded_escapeDataChar (c : Char) (cs : List Char) :
    decoded (escapeDataChar c ++ cs) = c :: decoded cs := by
  unfold escapeDataChar
  split_ifs with hpercent hreturn hfeed
  · subst hpercent
    exact decoded_escape (by decide) cs
  · subst hreturn
    exact decoded_escape (by decide) cs
  · subst hfeed
    exact decoded_escape (by decide) cs
  · exact decoded_cons hpercent cs

theorem decoded_escapePropertyChar (c : Char) (cs : List Char) :
    decoded (escapePropertyChar c ++ cs) = c :: decoded cs := by
  unfold escapePropertyChar
  split_ifs with hcolon hcomma
  · subst hcolon
    exact decoded_escape (by decide) cs
  · subst hcomma
    exact decoded_escape (by decide) cs
  · exact decoded_escapeDataChar c cs

/-- **Decoding undoes escaping** of texts if it does so for every character. -/
theorem decoded_flatMap {escape : Char → List Char}
    (h : ∀ c cs, decoded (escape c ++ cs) = c :: decoded cs) (text : List Char) :
    decoded (text.flatMap escape) = text := by
  induction text with
  | nil => rfl
  | cons c text ih => rw [List.flatMap_cons, h, ih]

theorem decoded_escapeData (text : String) : decoded (escapeData text).toList = text.toList := by
  rw [escapeData, String.toList_ofList]
  exact decoded_flatMap decoded_escapeDataChar _

theorem decoded_escapeProperty (text : String) :
    decoded (escapeProperty text).toList = text.toList := by
  rw [escapeProperty, String.toList_ofList]
  exact decoded_flatMap decoded_escapePropertyChar _

/-! ### Reserved characters -/

theorem notMem_escapeDataChar {r : Char} (h : r = '\n' ∨ r = '\r') (c : Char) :
    r ∉ escapeDataChar c := by
  unfold escapeDataChar
  split_ifs <;> rcases h with rfl | rfl <;> simp_all [eq_comm]

theorem notMem_escapePropertyChar {r : Char} (h : (r = '\n' ∨ r = '\r') ∨ r = ':' ∨ r = ',')
    (c : Char) : r ∉ escapePropertyChar c := by
  unfold escapePropertyChar escapeDataChar
  split_ifs <;> rcases h with (rfl | rfl) | rfl | rfl <;> simp_all [eq_comm]

theorem notMem_escapeData {r : Char} (h : r = '\n' ∨ r = '\r') (text : String) :
    r ∉ (escapeData text).toList := by
  rw [escapeData, String.toList_ofList, List.mem_flatMap]
  rintro ⟨c, -, hr⟩
  exact notMem_escapeDataChar h c hr

theorem notMem_escapeProperty {r : Char} (h : (r = '\n' ∨ r = '\r') ∨ r = ':' ∨ r = ',')
    (text : String) : r ∉ (escapeProperty text).toList := by
  rw [escapeProperty, String.toList_ofList, List.mem_flatMap]
  rintro ⟨c, -, hr⟩
  exact notMem_escapePropertyChar h c hr

/-! ### One replacement after the other -/

/-- A text in which a character is replaced by a piece of text. -/
def replaced (c : Char) (piece : String) (cs : List Char) : List Char :=
  cs.flatMap fun d => if d = c then piece.toList else [d]

/-- **Escaping a text as data** is replacing the sign of escapes, and then the ends of lines. -/
theorem escapeData_eq_replaced (text : String) :
    (escapeData text).toList =
      replaced '\n' "%0A" (replaced '\r' "%0D" (replaced '%' "%25" text.toList)) := by
  rw [escapeData, String.toList_ofList, replaced, replaced, replaced, List.flatMap_assoc,
    List.flatMap_assoc]
  congr 1
  funext c
  unfold escapeDataChar
  split_ifs with hpercent hreturn hfeed <;> simp_all

/-- **Escaping a text as a property** goes on with what separates properties. -/
theorem escapeProperty_eq_replaced (text : String) :
    (escapeProperty text).toList =
      replaced ',' "%2C" (replaced ':' "%3A" (escapeData text).toList) := by
  rw [escapeProperty, escapeData, String.toList_ofList, String.toList_ofList, replaced, replaced,
    List.flatMap_assoc, List.flatMap_assoc]
  congr 1
  funext c
  unfold escapePropertyChar escapeDataChar
  split_ifs <;> simp_all

/-! ### Commands -/

/-- A command of a build. -/
structure Command where
  name : String
  /-- The properties with their keys, in order. -/
  properties : List (String × String)
  data : String
  deriving Repr, DecidableEq

/-- A number in decimal digits. -/
def number? (text : String) : Option Nat :=
  if text.toList ≠ [] ∧ text.toList.all Char.isDigit then some (Text.digitsValue text.toList)
  else none

/-- A property, as it stands between commas: the key ends at the first equals sign. -/
def property? (piece : List Char) : Option (String × String) :=
  (Text.splitOnce (· = '=') piece).map fun cut =>
    (String.ofList cut.1, String.ofList (decoded cut.2))

namespace Command

/-- The command that a line is: after two colons the header up to the next two colons, which is a
name and behind a space the properties between commas; and then the data. -/
def read? (line : List Char) : Option Command :=
  (Text.dropPrefix? [':', ':'] line).bind fun rest =>
    (Text.cutAt? [':', ':'] rest).bind fun cut =>
      (Text.splitOnce (· = ' ') cut.1).bind fun header =>
        ((Text.splitAll ',' header.2).mapM property?).map fun properties =>
          ⟨String.ofList header.1, properties, String.ofList (decoded cut.2)⟩

/-- The severity that the name of a command stands for. -/
def severity? (c : Command) : Option Severity :=
  Severity.all.find? fun s => level s = c.name

/-- What a command says about a key. -/
def get? (c : Command) (key : String) : Option String :=
  c.properties.lookup key

/-- What a command tells about a finding in a project: all that is shown of it. -/
structure Tells (c : Command) (root : Path) (f : Finding) : Prop where
  severity : c.severity? = some f.severity
  file : c.get? "file" = some (shownFile root f)
  line : (c.get? "line").bind number? = some f.line
  title : c.get? "title" = some f.tag
  message : c.data = f.message

end Command

/-- A property as it is written, its value having been escaped. -/
def writtenProperty (p : List Char × List Char) : List Char :=
  p.1 ++ '=' :: p.2

/-- A command as it is written, the values and the data having been escaped. -/
def written (name : List Char) (properties : List (List Char × List Char)) (data : List Char) :
    List Char :=
  [':', ':'] ++ ((name ++ ' ' :: [','].intercalate (properties.map writtenProperty)) ++
    ([':', ':'] ++ data))

/-- Text holds no character that would end the part of a command that it is. -/
def IsFreeOf (reserved text : List Char) : Prop :=
  ∀ r ∈ reserved, r ∉ text

/-- The parts of a header can be told apart. -/
structure IsHeader (name : List Char) (properties : List (List Char × List Char)) : Prop where
  name_free : IsFreeOf [':', ' '] name
  properties_ne : properties ≠ []
  keys_free : ∀ p ∈ properties, IsFreeOf [':', ',', '='] p.1
  values_free : ∀ p ∈ properties, IsFreeOf [':', ','] p.2

section Reading

variable {name : List Char} {properties : List (List Char × List Char)}

theorem notMem_intercalate {c sep : Char} (hsep : c ≠ sep) {pieces : List (List Char)}
    (h : ∀ piece ∈ pieces, c ∉ piece) : c ∉ [sep].intercalate pieces := by
  cases pieces with
  | nil => exact List.not_mem_nil
  | cons piece pieces =>
      obtain ⟨hpiece, hpieces⟩ := List.forall_mem_cons.mp h
      rw [intercalate_cons, List.mem_append, List.mem_flatMap]
      rintro (hc | ⟨later, hlater, hc⟩)
      · exact hpiece hc
      · rcases List.mem_cons.mp hc with heq | hc
        · exact hsep heq
        · exact hpieces later hlater hc

theorem property?_written {p : List Char × List Char} (h : '=' ∉ p.1) :
    property? (writtenProperty p) = some (String.ofList p.1, String.ofList (decoded p.2)) := by
  have hkey : ∀ c ∈ p.1, decide (c = '=') = false := by
    intro c hc
    exact decide_eq_false fun heq => h (heq ▸ hc)
  rw [property?, writtenProperty, Text.splitOnce_append hkey (decide_eq_true rfl), Option.map_some]

theorem IsHeader.notMem_writtenProperty (h : IsHeader name properties) {r : Char}
    (hr : r = ':' ∨ r = ',') : ∀ piece ∈ properties.map writtenProperty, r ∉ piece := by
  intro piece hpiece
  obtain ⟨p, hp, rfl⟩ := List.mem_map.mp hpiece
  have hkey := h.keys_free p hp r (by rcases hr with rfl | rfl <;> simp)
  have hvalue := h.values_free p hp r (by rcases hr with rfl | rfl <;> simp)
  rw [writtenProperty, List.mem_append, List.mem_cons]
  rintro (hmem | rfl | hmem)
  · exact hkey hmem
  · exact absurd hr (by decide)
  · exact hvalue hmem

theorem IsHeader.mapM_property? (h : IsHeader name properties) :
    (properties.map writtenProperty).mapM property? =
      some (properties.map fun p => (String.ofList p.1, String.ofList (decoded p.2))) := by
  have hkeys : ∀ p ∈ properties, '=' ∉ p.1 := fun p hp => h.keys_free p hp '=' (by simp)
  clear h
  induction properties with
  | nil => rfl
  | cons p properties ih =>
      obtain ⟨hp, hlater⟩ := List.forall_mem_cons.mp hkeys
      rw [List.map_cons, List.mapM_cons, property?_written hp, ih hlater]
      rfl

/-- **A command is read as it was written.** -/
theorem Command.read?_written (h : IsHeader name properties) (data : List Char) :
    Command.read? (written name properties data) = some ⟨String.ofList name,
      properties.map fun p => (String.ofList p.1, String.ofList (decoded p.2)),
      String.ofList (decoded data)⟩ := by
  have hheader : ':' ∉ name ++ ' ' :: [','].intercalate (properties.map writtenProperty) := by
    rw [List.mem_append, List.mem_cons]
    rintro (hmem | heq | hmem)
    · exact h.name_free ':' (by simp) hmem
    · exact absurd heq (by decide)
    · exact notMem_intercalate (by decide) (h.notMem_writtenProperty (.inl rfl)) hmem
  have hname : ∀ c ∈ name, decide (c = ' ') = false := by
    intro c hc
    exact decide_eq_false fun heq => h.name_free ' ' (by simp) (heq ▸ hc)
  have hpieces := Text.splitAll_intercalate (mt List.map_eq_nil_iff.mp h.properties_ne)
    (h.notMem_writtenProperty (.inr rfl))
  have hopening : Text.dropPrefix? [':', ':'] (written name properties data) = some _ :=
    Text.dropPrefix?_eq_some_iff.mpr rfl
  have hcut := Text.cutAt?_append (List.cons_ne_nil ':' [':'])
    (fun c hc => by cases hc; exact hheader) data
  rw [Command.read?, hopening, Option.bind_some, hcut, Option.bind_some,
    Text.splitOnce_append hname (decide_eq_true rfl), Option.bind_some, hpieces, h.mapM_property?,
    Option.map_some]

end Reading

/-! ### Annotations -/

/-- A number is read as it is written. -/
theorem number?_toString (n : Nat) : number? (toString n) = some n := by
  have hdigits : (toString n).toList.all Char.isDigit = true :=
    List.all_eq_true.mpr fun c hc => Text.isDigit_of_mem_toString hc
  rw [number?, if_pos ⟨Text.toString_ne_nil n, hdigits⟩, Text.digitsValue_toString]

/-- The properties of the annotation for a finding as they are written. -/
def writtenProperties (root : Path) (f : Finding) : List (List Char × List Char) :=
  [("file".toList, (escapeProperty (shownFile root f)).toList),
    ("line".toList, (toString f.line).toList), ("title".toList, (escapeProperty f.tag).toList)]

/-- The characters of the annotation for a finding. -/
def lineOf (root : Path) (f : Finding) : List Char :=
  String.toList <| annotation root f

theorem lineOf_eq_written (root : Path) (f : Finding) :
    lineOf root f = written (level f.severity).toList (writtenProperties root f)
      (escapeData f.message).toList := by
  simp [lineOf, annotation, written, writtenProperties, writtenProperty, List.intercalate]

theorem isFreeOf_toString (n : Nat) : IsFreeOf [':', ','] (toString n).toList := by
  intro r hr
  simp only [List.mem_cons, List.not_mem_nil, or_false] at hr
  rcases hr with rfl | rfl <;> exact Text.notMem_toString (by decide) n

theorem isFreeOf_escapeProperty (text : String) :
    IsFreeOf [':', ','] (escapeProperty text).toList := by
  intro r hr
  exact notMem_escapeProperty (.inr (by simpa using hr)) text

theorem isHeader_writtenProperties (root : Path) (f : Finding) :
    IsHeader (level f.severity).toList (writtenProperties root f) where
  name_free := by cases f.severity <;> simp [IsFreeOf, level]
  properties_ne := by simp [writtenProperties]
  keys_free := by simp [writtenProperties, IsFreeOf]
  values_free := by
    simp only [writtenProperties, List.forall_mem_cons]
    exact ⟨isFreeOf_escapeProperty (shownFile root f), isFreeOf_toString f.line,
      isFreeOf_escapeProperty f.tag, List.forall_mem_nil _⟩

/-- Nothing in an annotation ends its line. -/
theorem notMem_lineOf {r : Char} (h : r = '\n' ∨ r = '\r') (root : Path) (f : Finding) :
    r ∉ lineOf root f := by
  have hlevel : r ∉ (level f.severity).toList := by
    cases f.severity <;> rcases h with rfl | rfl <;> decide
  have hline : r ∉ (toString f.line).toList := by
    rcases h with rfl | rfl <;> exact Text.notMem_toString (by decide) f.line
  have hfile := notMem_escapeProperty (.inl h) (shownFile root f)
  have htitle := notMem_escapeProperty (.inl h) f.tag
  have hmessage := notMem_escapeData h f.message
  simp only [lineOf, annotation, String.toList_append, List.mem_append, not_or]
  rcases h with rfl | rfl <;> simp_all

/-- The command for a finding. -/
def Command.ofFinding (root : Path) (f : Finding) : Command where
  name := level f.severity
  properties := [("file", shownFile root f), ("line", toString f.line), ("title", f.tag)]
  data := f.message

theorem Command.tells_ofFinding (root : Path) (f : Finding) :
    (Command.ofFinding root f).Tells root f where
  severity := by
    show (Severity.all.find? fun s => level s = level f.severity) = some f.severity
    cases f.severity <;> decide
  file := rfl
  line := number?_toString f.line
  title := rfl
  message := rfl

/-- **An annotation is read** as the command for the finding. -/
theorem Command.read?_lineOf (root : Path) (f : Finding) :
    Command.read? (lineOf root f) = some (Command.ofFinding root f) := by
  have hline : decoded (toString f.line).toList = (toString f.line).toList :=
    decoded_eq_self (Text.notMem_toString (by decide) f.line)
  rw [lineOf_eq_written, Command.read?_written (isHeader_writtenProperties root f)]
  simp only [writtenProperties, Command.ofFinding, List.map_cons, List.map_nil, hline,
    decoded_escapeData, decoded_escapeProperty, String.ofList_toList]

/-- The lines of a text are found again if none of them holds the end of a line. -/
theorem splitAll_lines {lines : List String} (h : ∀ line ∈ lines, '\n' ∉ line.toList) :
    Text.splitAll '\n' (String.join (lines.map (· ++ "\n"))).toList =
      lines.map String.toList ++ [[]] := by
  induction lines with
  | nil => rfl
  | cons line lines ih =>
      obtain ⟨hline, hlines⟩ := List.forall_mem_cons.mp h
      have hjoin : (String.join ((line :: lines).map (· ++ "\n"))).toList =
          line.toList ++ '\n' :: (String.join (lines.map (· ++ "\n"))).toList := by
        simp [String.join_cons]
      rw [hjoin, Text.splitAll_append_cons, Text.splitAll_eq_singleton hline, ih hlines]
      rfl

/-- **Annotations are read as the findings that they were made of**, whatever stands in their texts.
A report has one line for each finding, in order, and none of them holds the end of a line. Read
line by line, it gives one command for each finding, and the command tells the severity, the path
seen from the root of the project, the line, the tag and the message. -/
theorem annotations_decode (root : Path) (findings : List Finding) :
    let lines := Text.splitAll '\n' (render root findings).toList
    lines = findings.map (lineOf root) ++ [[]] ∧
      lines.filterMap Command.read? = findings.map (Command.ofFinding root) ∧
      ∀ f : Finding, '\n' ∉ lineOf root f ∧ '\r' ∉ lineOf root f ∧
        Command.read? (lineOf root f) = some (Command.ofFinding root f) ∧
        (Command.ofFinding root f).Tells root f := by
  intro lines
  have hlines : lines = findings.map (lineOf root) ++ [[]] := by
    have hfree : ∀ text ∈ findings.map (fun f => annotation root f), '\n' ∉ text.toList := by
      intro text htext
      obtain ⟨f, -, rfl⟩ := List.mem_map.mp htext
      exact notMem_lineOf (.inl rfl) root f
    have hrender : render root findings =
        String.join ((findings.map fun f => annotation root f).map (· ++ "\n")) := by
      rw [render, List.map_map]
      rfl
    have hmap : findings.map (lineOf root) =
        (findings.map fun f => annotation root f).map String.toList := by
      rw [List.map_map]
      rfl
    rw [hmap, ← splitAll_lines hfree, ← hrender]
  refine ⟨hlines, ?_, fun f => ⟨notMem_lineOf (.inl rfl) root f, notMem_lineOf (.inr rfl) root f,
    Command.read?_lineOf root f, Command.tells_ofFinding root f⟩⟩
  -- nothing is read from the empty line behind the last end of a line
  have hlast : [[]].filterMap Command.read? = [] := rfl
  have hread : Command.read? ∘ lineOf root = some ∘ Command.ofFinding root := by
    funext f
    rw [Function.comp_apply, Function.comp_apply, Command.read?_lineOf]
  rw [hlines, List.filterMap_append, List.filterMap_map, hread, hlast, List.append_nil,
    List.filterMap_eq_map]

/-- A text that looks like another command, and one that looks escaped already. -/
example : annotation ⟨"/p"⟩ ⟨⟨"/p/a,b.yml"⟩, 3, "fqcn", "fqcn[a=b]", .error, "50%\n::error::%0A"⟩ =
    "::error file=a%2Cb.yml,line=3,title=fqcn[a=b]::50%25%0A::error::%250A" := by
  decide

end PlaybookLint.Report.Annotation
