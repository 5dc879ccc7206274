import PlaybookLint.Proofs.Annotations
import PlaybookLint.Proofs.Grouping
import PlaybookLint.Proofs.JsonReading

/-!
# What is read in reports

A report for people is read line by line, without the control sequences that colour it. Three kinds
of lines say something: the heading of a group, the entry of a finding, and the totals at the end.
Each is read back as what it was made of. A report for programs is read as a JSON document.

## Main definitions

* `Terminal.visible` - what is shown of a text that holds control sequences.
* `Terminal.Heading`, `Terminal.Entry`, `Terminal.Totals` - what lines say, with their readings.
* `Terminal.ShowsGroup`, `Terminal.ShowsReport` - the lines of a group and of a report.
* `Structured.IsShownBy`, `Structured.StatesNumbers` - what values say.

## Main statements

* `Terminal.visible_append` - pieces of a line are shown apart from each other.
* `Terminal.Heading.read?_header`, `Terminal.Entry.read?_findingLine`,
  `Terminal.Totals.read?_totalsLine` - lines are read as what they were made of.
* `reports_present` - both reports present every finding once.
-/

namespace PlaybookLint.Report

namespace Terminal

open Annotation (number? number?_toString)

/-! ### What is shown -/

/-- Whether a character goes on with the control sequence of which `begun` has been read: behind the
sign of escapes stand a bracket and the digits of a number. -/
def goesOn (begun : List Char) (c : Char) : Bool :=
  if begun.length = 1 then c = '[' else c.isDigit

/-- The characters that are shown of a text, `begun` being the beginning of a control sequence. It
is shown itself if no control sequence comes of it. -/
def visibleFrom (begun : List Char) : List Char → List Char
  | [] => begun
  | c :: cs =>
    if c = '\x1b' then begun ++ visibleFrom [c] cs
    else if begun = [] then c :: visibleFrom [] cs
    else if goesOn begun c then visibleFrom (begun ++ [c]) cs
    else if c = 'm' ∧ begun.length ≠ 1 then visibleFrom [] cs
    else begun ++ c :: visibleFrom [] cs

/-- The characters that are shown of a text: all but those of control sequences. -/
def visible (cs : List Char) : List Char :=
  visibleFrom [] cs

@[simp] theorem visible_nil : visible [] = [] :=
  rfl

theorem visible_cons {c : Char} (h : c ≠ '\x1b') (cs : List Char) :
    visible (c :: cs) = c :: visible cs := by
  rw [visible, visibleFrom, if_neg h, if_pos rfl, visible]

theorem visible_append_of_notMem {text : List Char} (h : '\x1b' ∉ text) (cs : List Char) :
    visible (text ++ cs) = text ++ visible cs := by
  induction text with
  | nil => rfl
  | cons c text ih =>
      obtain ⟨hc, htext⟩ := not_or.mp (mt List.mem_cons.mpr h)
      rw [List.cons_append, visible_cons (Ne.symm hc), ih htext, List.cons_append]

theorem visible_toString (n : Nat) (cs : List Char) :
    visible ((toString n).toList ++ cs) = (toString n).toList ++ visible cs :=
  visible_append_of_notMem (Text.notMem_toString (by decide) n) cs

/-- No control sequence that is open goes on with a text. -/
def Breaks (cs : List Char) : Prop :=
  ∀ c ∈ cs.head?, c = '\x1b' ∨ c = ' ' ∨ c = '\n'

theorem breaks_cons {c : Char} (h : c = '\x1b' ∨ c = ' ' ∨ c = '\n') (cs : List Char) :
    Breaks (c :: cs) := by
  intro d hd
  cases hd
  exact h

theorem visibleFrom_eq_append {begun cs : List Char} (h : Breaks cs) :
    visibleFrom begun cs = begun ++ visible cs := by
  cases cs with
  | nil => simp [visible, visibleFrom]
  | cons c cs =>
      have hgoesOn : c ≠ '\x1b' → goesOn begun c = false := by
        intro hc
        rcases (h c rfl).resolve_left hc with rfl | rfl <;> simp [goesOn]
      have hends : c ≠ '\x1b' → c ≠ 'm' := by
        intro hc
        rcases (h c rfl).resolve_left hc with rfl | rfl <;> decide
      rw [visible, visibleFrom, visibleFrom]
      split_ifs <;> simp_all

/-- **Pieces of a line are shown apart from each other** if no control sequence that the first one
leaves open goes on in the second one. -/
theorem visible_append {cs : List Char} (h : Breaks cs) (text : List Char) :
    visible (text ++ cs) = visible text ++ visible cs := by
  have hfrom : ∀ begun, visibleFrom begun (text ++ cs) = visibleFrom begun text ++ visible cs := by
    induction text with
    | nil => exact fun begun => visibleFrom_eq_append h
    | cons c text ih =>
        intro begun
        rw [List.cons_append, visibleFrom, visibleFrom]
        split_ifs <;> simp [ih]
  exact hfrom []

theorem control_append (n : Nat) (cs : List Char) :
    (control n).toList ++ cs = '\x1b' :: '[' :: ((toString n).toList ++ 'm' :: cs) := by
  simp [control]

/-- A control sequence is not shown. -/
theorem visible_control (n : Nat) (cs : List Char) :
    visible ((control n).toList ++ cs) = visible cs := by
  have hdigits : ∀ begun digits : List Char, 1 < begun.length → (∀ c ∈ digits, c.isDigit = true) →
      visibleFrom begun (digits ++ 'm' :: cs) = visible cs := by
    intro begun digits hbegun hall
    have hone : begun.length ≠ 1 := by omega
    have hne : begun ≠ [] := List.ne_nil_of_length_pos (by omega)
    induction digits generalizing begun with
    | nil => simp [visibleFrom, goesOn, visible, hone, hne]
    | cons c digits ih =>
        obtain ⟨hc, hlater⟩ := List.forall_mem_cons.mp hall
        have hescape : c ≠ '\x1b' := by
          rintro rfl
          exact absurd hc (by decide)
        have hlength : (begun ++ [c]).length = begun.length + 1 := List.length_append
        rw [List.cons_append, visibleFrom, if_neg hescape, if_neg hne, goesOn, if_neg hone, hc,
          if_pos rfl, ih (begun ++ [c]) (by omega) hlater (by omega) (by simp)]
  rw [control_append, visible]
  exact hdigits ['\x1b', '['] _ (by decide) fun c hc => Text.isDigit_of_mem_toString hc

/-- A text between two control sequences is shown. -/
theorem visible_between (m n : Nat) (text : String) (cs : List Char) :
    visible ((control m ++ text ++ control n).toList ++ cs) =
      visible text.toList ++ visible cs := by
  have hbreaks : Breaks ((control n).toList ++ cs) := by
    rw [control_append]
    exact breaks_cons (.inl rfl) _
  rw [String.toList_append, String.toList_append, List.append_assoc, List.append_assoc,
    visible_control, visible_append hbreaks, visible_control]

theorem visible_coloured (n : Nat) (text : String) (cs : List Char) :
    visible ((coloured n text).toList ++ cs) = visible text.toList ++ visible cs :=
  visible_between n 39 text cs

theorem visible_bold (text : String) (cs : List Char) :
    visible ((bold text).toList ++ cs) = visible text.toList ++ visible cs :=
  visible_between 1 0 text cs

theorem visible_faint (text : String) (cs : List Char) :
    visible ((faint text).toList ++ cs) = visible text.toList ++ visible cs :=
  visible_between 2 0 text cs

theorem visible_styled (severity : Severity) (text : String) (cs : List Char) :
    visible ((styled severity text).toList ++ cs) = visible text.toList ++ visible cs := by
  have hbold : ∀ n, visible ((bold (coloured n text)).toList ++ cs) =
      visible text.toList ++ visible cs := by
    intro n
    rw [visible_bold, ← List.append_nil (coloured n text).toList, visible_coloured, visible_nil,
      List.append_nil]
  cases severity with
  | error => exact hbold 31
  | warning => exact hbold 33
  | info => exact visible_coloured 34 text cs

/-- A text of lines is shown line by line. -/
theorem visible_lines (lines : List String) :
    visible (String.join (lines.map (· ++ "\n"))).toList =
      (lines.map fun line => visible line.toList).flatMap (· ++ ['\n']) := by
  induction lines with
  | nil => rfl
  | cons line lines ih =>
      have hline : (String.join ((line :: lines).map (· ++ "\n"))).toList =
          line.toList ++ '\n' :: (String.join (lines.map (· ++ "\n"))).toList := by
        simp [String.join_cons]
      rw [hline, visible_append (breaks_cons (.inr (.inr rfl)) _), visible_cons (by decide), ih]
      simp

/-! ### Entries -/

/-- What the line of a finding says: the line of the file, and a text about it. -/
structure Entry where
  line : Nat
  text : List Char
  deriving DecidableEq

/-- The digits of a number in a column of at least four characters, and a blank. -/
def column (digits : List Char) : List Char :=
  digits ++ List.replicate (4 - digits.length + 1) ' '

/-- The entry that a line is: behind an `L` the column of the number, and then the text. -/
def Entry.read? (cs : List Char) : Option Entry :=
  (Text.dropPrefix? "      L".toList cs).bind fun rest =>
    let digits := rest.takeWhile Char.isDigit
    (Text.dropPrefix? (column digits) rest).bind fun text =>
      (number? (String.ofList digits)).map fun n => ⟨n, text⟩

/-- The entry of a finding: the text is its tag and its message. -/
def Entry.ofFinding (f : Finding) : Entry :=
  ⟨f.line, visible f.tag.toList ++ ' ' :: visible f.message.toList⟩

theorem notMem_column (n : Nat) : '\x1b' ∉ column (toString n).toList := by
  rw [column, List.mem_append]
  rintro (hmem | hmem)
  · exact Text.notMem_toString (by decide) n hmem
  · exact absurd (List.eq_of_mem_replicate hmem) (by decide)

/-- The column of a number begins with its digits. -/
theorem takeWhile_column (n : Nat) (cs : List Char) :
    (column (toString n).toList ++ cs).takeWhile Char.isDigit = (toString n).toList := by
  rw [column, List.append_assoc,
    List.takeWhile_append_of_pos fun c hc => Text.isDigit_of_mem_toString hc, List.replicate_succ,
    List.cons_append, List.takeWhile_cons_of_neg (by decide), List.append_nil]

theorem visible_findingLine (f : Finding) :
    visible (findingLine f).toList =
      "      L".toList ++ (column (toString f.line).toList ++ (Entry.ofFinding f).text) := by
  have hline : (findingLine f).toList = "      L".toList ++ (column (toString f.line).toList ++
      ((styled f.severity f.tag).toList ++ ' ' :: f.message.toList)) := by
    simp only [findingLine, String.toList_append, Text.toList_padRight, column,
      List.replicate_succ', List.append_assoc]
    rfl
  rw [hline, visible_append_of_notMem (by decide), visible_append_of_notMem (notMem_column _),
    visible_styled, visible_cons (by decide), Entry.ofFinding]

/-- **The line of a finding is read** as its entry. -/
theorem Entry.read?_findingLine (f : Finding) :
    Entry.read? (visible (findingLine f).toList) = some (Entry.ofFinding f) := by
  have hopening : Text.dropPrefix? "      L".toList (visible (findingLine f).toList) =
      some (column (toString f.line).toList ++ (Entry.ofFinding f).text) :=
    Text.dropPrefix?_eq_some_iff.mpr (visible_findingLine f)
  have htext : Text.dropPrefix? (column (toString f.line).toList)
      (column (toString f.line).toList ++ (Entry.ofFinding f).text) =
        some (Entry.ofFinding f).text := Text.dropPrefix?_eq_some_iff.mpr rfl
  simp only [Entry.read?, hopening, Option.bind_some, takeWhile_column, htext,
    String.ofList_toList, number?_toString, Option.map_some]
  rfl

/-! ### Headings -/

/-- What the line above a group says: how serious its findings are at most, their file, and how many
they are. -/
structure Heading where
  severity : Severity
  file : List Char
  size : Nat
  deriving DecidableEq

/-- The signs of severities. -/
def signs : List (Char × Severity) :=
  [('✗', .error), ('⚠', .warning), ('ℹ', .info)]

/-- The size of a group between parentheses, and the blank before them. -/
def parenthesized (digits : List Char) : List Char :=
  " (".toList ++ digits ++ [')']

/-- The heading that a line is: a sign, and behind a blank the file and the size, which is what
stands behind the last opening parenthesis. -/
def Heading.read? : List Char → Option Heading
  | ' ' :: ' ' :: sign :: ' ' :: rest =>
    let digits := (Text.afterLast '(' rest).dropLast
    (signs.lookup sign).bind fun severity =>
      (Text.dropPrefix? (parenthesized digits).reverse rest.reverse).bind fun file =>
        (number? (String.ofList digits)).map fun size => ⟨severity, file.reverse, size⟩
  | _ => none

theorem visible_header (group : FileGroup) : ∃ c, signs.lookup c = some group.worst ∧
    visible (header group).toList = ' ' :: ' ' :: c :: ' ' ::
      (visible group.file.toList ++ parenthesized (toString group.findings.length).toList) := by
  have hline : (header group).toList = ' ' :: ' ' ::
      ((coloured (colour group.worst) (sign group.worst)).toList ++ ' ' ::
        ((bold group.file).toList ++ ' ' ::
          ((faint ("(" ++ toString group.findings.length ++ ")")).toList ++ []))) := by
    simp only [header, String.toList_append, List.append_assoc, List.append_nil]
    rfl
  have hsize : visible ("(" ++ toString group.findings.length ++ ")").toList =
      '(' :: ((toString group.findings.length).toList ++ [')']) := by
    rw [String.toList_append, String.toList_append, List.append_assoc,
      visible_append_of_notMem (by decide), visible_toString]
    rfl
  obtain ⟨c, hsign, hc⟩ : ∃ c, visible (sign group.worst).toList = [c] ∧
      signs.lookup c = some group.worst := by
    cases group.worst
    · exact ⟨'ℹ', by decide, by decide⟩
    · exact ⟨'⚠', by decide, by decide⟩
    · exact ⟨'✗', by decide, by decide⟩
  refine ⟨c, hc, ?_⟩
  rw [hline, visible_cons (by decide), visible_cons (by decide), visible_coloured, hsign,
    visible_cons (by decide), visible_bold, visible_cons (by decide), visible_faint, hsize]
  simp [parenthesized]

/-- **The line above a group is read** as the heading of the group. -/
theorem Heading.read?_header (group : FileGroup) :
    Heading.read? (visible (header group).toList) =
      some ⟨group.worst, visible group.file.toList, group.findings.length⟩ := by
  obtain ⟨c, hc, hline⟩ := visible_header group
  have hlast : ∀ cs, Text.afterLast '('
      (cs ++ parenthesized (toString group.findings.length).toList) =
        (toString group.findings.length).toList ++ [')'] := by
    intro cs
    have hfree : '(' ∉ (toString group.findings.length).toList ++ [')'] := by
      rw [List.mem_append]
      rintro (hmem | hmem)
      · exact Text.notMem_toString (by decide) _ hmem
      · exact absurd (List.mem_singleton.mp hmem) (by decide)
    rw [parenthesized, ← Text.afterLast_append_cons hfree (cs ++ [' '])]
    simp
  have hfile : Text.dropPrefix? (parenthesized (toString group.findings.length).toList).reverse
      (visible group.file.toList ++ parenthesized (toString group.findings.length).toList).reverse =
        some (visible group.file.toList).reverse :=
    Text.dropPrefix?_eq_some_iff.mpr (List.reverse_append ..)
  rw [hline]
  simp only [Heading.read?, hlast, List.dropLast_concat, hc, Option.bind_some, hfile,
    String.ofList_toList, number?_toString, Option.map_some, List.reverse_reverse]

/-! ### Totals -/

/-- What the last line says: the numbers of findings by severity, and the number of files. -/
structure Totals where
  numbers : List (Severity × Nat)
  files : Nat
  deriving DecidableEq

/-- What findings of a severity are called. -/
def unit : Severity → String
  | .error => "errors"
  | .warning => "warnings"
  | .info => "info"

/-- The severity that a word names, perhaps with a comma behind it. -/
def severityOfUnit? (word : List Char) : Option Severity :=
  Severity.all.find? fun s => (unit s).toList = word.filter (· ≠ ',')

namespace Totals

/-- The totals that words are: numbers with what they count, and behind `across` the number of
files. -/
def readWords? : List (List Char) → Option Totals
  | word :: next :: words =>
    if word = "across".toList then
      if words = ["files".toList] then
        (number? (String.ofList next)).map fun files => ⟨[], files⟩
      else none
    else
      (number? (String.ofList word)).bind fun n =>
        (severityOfUnit? next).bind fun severity =>
          (readWords? words).map fun totals => ⟨(severity, n) :: totals.numbers, totals.files⟩
  | _ => none

/-- The totals that a line is, which begins with two blanks. -/
def read? (cs : List Char) : Option Totals :=
  (Text.dropPrefix? [' ', ' '] cs).bind fun rest => readWords? (Text.splitAll ' ' rest)

end Totals

/-- The number of findings of a severity in words. -/
def inWords (number : Severity × Nat) : String :=
  styled number.1 (toString number.2 ++ " " ++ unit number.1)

/-- The severities with their numbers of findings, the most serious one first. Numbers that are zero
are left out. -/
def numbersBySeverity (number : Severity → Nat) : List (Severity × Nat) :=
  ([.error, .warning, .info].map fun s => (s, number s)).filter fun n => n.2 ≠ 0

theorem tallies_eq (findings : List Finding) :
    tallies findings = (numbersBySeverity fun s => count s findings).map inWords := by
  simp only [tallies, tally, numbersBySeverity]
  by_cases herror : count .error findings = 0 <;>
    by_cases hwarning : count .warning findings = 0 <;>
    by_cases hinfo : count .info findings = 0 <;>
    simp [herror, hwarning, hinfo, inWords, unit]

/-- A number of findings as it is shown. -/
def plainWords (number : Severity × Nat) : List Char :=
  (toString number.2).toList ++ ' ' :: (unit number.1).toList

theorem visible_inWords (number : Severity × Nat) (cs : List Char) :
    visible ((inWords number).toList ++ cs) = plainWords number ++ visible cs := by
  have hunit : '\x1b' ∉ ' ' :: (unit number.1).toList := by
    cases number.1 <;> decide
  rw [inWords, visible_styled, String.toList_append, String.toList_append, List.append_assoc,
    visible_toString]
  show (toString number.2).toList ++ visible (' ' :: (unit number.1).toList) ++ visible cs = _
  rw [← List.append_nil (' ' :: (unit number.1).toList), visible_append_of_notMem hunit,
    visible_nil, List.append_nil, plainWords]

theorem visible_intercalate_inWords (numbers : List (Severity × Nat)) (cs : List Char) :
    visible ((", ".intercalate (numbers.map inWords)).toList ++ cs) =
      [',', ' '].intercalate (numbers.map plainWords) ++ visible cs := by
  rw [String.toList_intercalate]
  induction numbers with
  | nil => rfl
  | cons number numbers ih =>
      cases numbers with
      | nil => simpa using visible_inWords number cs
      | cons next numbers =>
          simp only [List.map_cons, List.intercalate_cons_cons, List.append_assoc] at ih ⊢
          rw [visible_inWords, visible_append_of_notMem (by decide), ih]
          rfl

theorem Totals.readWords?_cons (number : Severity × Nat) {ending : List Char}
    (h : ending = [] ∨ ending = [',']) (cs : List Char) :
    readWords? (Text.splitAll ' ' (plainWords number ++ (ending ++ ' ' :: cs))) =
      (readWords? (Text.splitAll ' ' cs)).map fun totals =>
        ⟨number :: totals.numbers, totals.files⟩ := by
  have hblank : ' ' ∉ (toString number.2).toList := Text.notMem_toString (by decide) _
  have hword : (toString number.2).toList ≠ "across".toList := by
    intro heq
    exact Text.notMem_toString (show 'a'.isDigit = false by decide) number.2 (heq ▸ by decide)
  have hunit : ' ' ∉ (unit number.1).toList ++ ending := by
    rcases h with rfl | rfl <;> cases number.1 <;> decide
  have hseverity : severityOfUnit? ((unit number.1).toList ++ ending) = some number.1 := by
    rcases h with rfl | rfl <;> cases number.1 <;> decide
  have hwords : Text.splitAll ' ' (plainWords number ++ (ending ++ ' ' :: cs)) =
      (toString number.2).toList :: ((unit number.1).toList ++ ending) ::
        Text.splitAll ' ' cs := by
    rw [plainWords, List.append_assoc, List.cons_append, ← List.append_assoc _ ending,
      Text.splitAll_append_cons, Text.splitAll_append_cons, Text.splitAll_eq_singleton hblank,
      Text.splitAll_eq_singleton hunit]
    rfl
  rw [hwords, readWords?, if_neg hword, String.ofList_toList, number?_toString,
    hseverity]
  rfl

/-- Numbers that follow one another are read one by one. -/
theorem Totals.readWords?_numbers {numbers : List (Severity × Nat)} (h : numbers ≠ [])
    {cs : List Char} {files : Nat} (hcs : readWords? (Text.splitAll ' ' cs) = some ⟨[], files⟩) :
    readWords? (Text.splitAll ' '
      ([',', ' '].intercalate (numbers.map plainWords) ++ ' ' :: cs)) = some ⟨numbers, files⟩ := by
  induction numbers with
  | nil => exact absurd rfl h
  | cons number numbers ih =>
      cases numbers with
      | nil =>
          have hlast := readWords?_cons number (.inl rfl) cs
          rw [hcs] at hlast
          simpa using hlast
      | cons next numbers =>
          have hlater := ih (List.cons_ne_nil _ _)
          simp only [List.map_cons, List.intercalate_cons_cons, List.append_assoc] at hlater ⊢
          show readWords? (Text.splitAll ' ' (plainWords number ++ ([','] ++ ' ' ::
            ([',', ' '].intercalate (plainWords next :: numbers.map plainWords) ++ ' ' :: cs)))) = _
          rw [readWords?_cons number (.inr rfl), hlater]
          rfl

/-- The line with the totals. -/
def totalsLine (totals : Totals) : String :=
  "  " ++ ", ".intercalate (totals.numbers.map inWords) ++ " across " ++
    bold (toString totals.files) ++ " files"

/-- **The last line is read** as its totals, if it says any number. -/
theorem Totals.read?_totalsLine {totals : Totals} (h : totals.numbers ≠ []) :
    Totals.read? (visible (totalsLine totals).toList) = some totals := by
  have hline : (totalsLine totals).toList = "  ".toList ++
      ((", ".intercalate (totals.numbers.map inWords)).toList ++ (" across ".toList ++
        ((bold (toString totals.files)).toList ++ " files".toList))) := by
    simp only [totalsLine, String.toList_append, List.append_assoc]
  have hfiles := visible_toString totals.files []
  rw [List.append_nil, visible_nil, List.append_nil] at hfiles
  have hopening : Text.dropPrefix? [' ', ' '] (visible (totalsLine totals).toList) =
      some ([',', ' '].intercalate (totals.numbers.map plainWords) ++ ' ' :: ("across".toList ++
        ' ' :: ((toString totals.files).toList ++ ' ' :: "files".toList))) := by
    rw [Text.dropPrefix?_eq_some_iff, hline, visible_append_of_notMem (by decide),
      visible_intercalate_inWords, visible_append_of_notMem (by decide), visible_bold, hfiles]
    rfl
  have hblank : ' ' ∉ (toString totals.files).toList := Text.notMem_toString (by decide) _
  have hending : readWords? (Text.splitAll ' ' ("across".toList ++ ' ' ::
      ((toString totals.files).toList ++ ' ' :: "files".toList))) = some ⟨[], totals.files⟩ := by
    rw [Text.splitAll_append_cons, Text.splitAll_append_cons, Text.splitAll_eq_singleton hblank,
      Text.splitAll_eq_singleton (show ' ' ∉ "across".toList by decide),
      Text.splitAll_eq_singleton (show ' ' ∉ "files".toList by decide)]
    show readWords? ["across".toList, (toString totals.files).toList, "files".toList] = _
    rw [readWords?, if_pos rfl, if_pos rfl, String.ofList_toList, number?_toString]
    rfl
  rw [read?, hopening, Option.bind_some]
  exact readWords?_numbers h hending

/-! ### Reports -/

/-- The line across a report. -/
def acrossLine : List Char :=
  ' ' :: ' ' :: List.replicate 50 '━'

theorem visible_ruler : visible ruler.toList = acrossLine := by
  have hbar : '\x1b' ∉ List.replicate 50 '━' := by decide
  have hline : ruler.toList = "  ".toList ++ ((faint ("".pushn '━' 50)).toList ++ []) := by
    rw [ruler, String.toList_append, List.append_nil]
  rw [hline, visible_append_of_notMem (by decide), visible_faint, Text.toList_pushn]
  show "  ".toList ++ (visible (List.replicate 50 '━') ++ visible []) = _
  rw [← List.append_nil (List.replicate 50 '━'), visible_append_of_notMem hbar]
  rfl

/-- The lines of a report on no findings. -/
def allClear : List (List Char) :=
  [[], acrossLine, "  no issues found".toList, []]

/-- Lines show a group: behind an empty line, its heading and the entries of its findings in order.
The heading states the most serious severity, the file and the size. -/
inductive ShowsGroup (group : FileGroup) : List (List Char) → Prop
  | intro {worst : Severity} {heading : List Char} {entries : List (List Char)}
      (isWorst : IsWorst worst group.findings)
      (reads_heading : Heading.read? heading =
        some ⟨worst, visible group.file.toList, group.findings.length⟩)
      (reads_entries : entries.map Entry.read? =
        group.findings.map fun f => some (Entry.ofFinding f)) :
      ShowsGroup group ([] :: heading :: entries)

/-- Lines show some groups, one behind the other, and then the totals. -/
inductive ShowsReport (groups : List FileGroup) (totals : Totals) : List (List Char) → Prop
  | intro {blocks : List (List (List Char))} {footer : List Char}
      (shows_groups : List.Forall₂ ShowsGroup groups blocks)
      (reads_footer : Totals.read? footer = some totals) :
      ShowsReport groups totals (blocks.flatten ++ [[], acrossLine, footer, acrossLine, []])

/-- The lines of a report as they are shown. -/
def shownLines (root : Path) (findings : List Finding) : List (List Char) :=
  (lines root findings).map fun line => visible line.toList

theorem shownLines_nil (root : Path) : shownLines root [] = allClear := by
  have hline : visible ("  " ++ coloured 32 "no issues found").toList =
      "  no issues found".toList := by decide
  rw [shownLines, lines, if_pos List.isEmpty_nil, List.map_cons, List.map_cons, List.map_cons,
    visible_ruler, hline]
  rfl

theorem showsGroup_groupLines {group : FileGroup} (h : group.findings ≠ []) :
    ShowsGroup group ((groupLines group).map fun line => visible line.toList) := by
  rw [groupLines, List.map_cons, List.map_cons]
  refine .intro (isWorst_worst h) (Heading.read?_header group) ?_
  simp only [List.map_map, Function.comp_def, Entry.read?_findingLine]

/-- **The lines of a report show its findings** by groups, and their numbers. -/
theorem showsReport_shownLines {root : Path} {findings : List Finding} (h : findings ≠ []) :
    ShowsReport (groups root findings)
      ⟨numbersBySeverity fun s => count s findings, (groups root findings).length⟩
      (shownLines root findings) := by
  have hgroups : List.Forall₂ ShowsGroup (groups root findings)
      ((groups root findings).map fun group =>
        (groupLines group).map fun line => visible line.toList) := by
    rw [List.forall₂_map_right_iff, List.forall₂_same]
    intro group hgroup
    exact showsGroup_groupLines (((isPartition_groups root findings).mem_iff group).mp hgroup).1
  have hnumbers : (numbersBySeverity fun s => count s findings) ≠ [] := by
    obtain ⟨f, hf⟩ := List.exists_mem_of_ne_nil _ h
    have hcount : count f.severity findings ≠ 0 := by
      rw [count, ← Nat.pos_iff_ne_zero, List.countP_pos_iff]
      exact ⟨f, hf, decide_eq_true rfl⟩
    refine List.ne_nil_of_mem (a := (f.severity, count f.severity findings)) ?_
    cases hseverity : f.severity <;> simp_all [numbersBySeverity]
  have hlines : shownLines root findings = ((groups root findings).map fun group =>
      (groupLines group).map fun line => visible line.toList).flatten ++
        [[], acrossLine, visible (totalsLine ⟨numbersBySeverity fun s => count s findings,
          (groups root findings).length⟩).toList, acrossLine, []] := by
    rw [shownLines, lines, if_neg (by simpa using h), tallies_eq, totalsLine]
    simp [List.flatMap_def, Function.comp_def, visible_ruler]
  rw [hlines]
  exact .intro hgroups (Totals.read?_totalsLine hnumbers)

end Terminal

/-! ### Values -/

namespace Structured

/-- What stands in an object under a name. -/
def member? (name : String) : Json → Option Json
  | .object members => members.lookup name
  | _ => none

/-- A value says all about a finding, its path being seen from the root of the project. -/
structure IsShownBy (root : Path) (value : Json) (f : Finding) : Prop where
  file : member? "file" value = some (.string (shownFile root f))
  line : member? "line" value = some (.number f.line)
  rule : member? "rule" value = some (.string f.rule)
  tag : member? "tag" value = some (.string f.tag)
  severity : member? "severity" value = some (.string f.severity.name)
  message : member? "message" value = some (.string f.message)

theorem isShownBy_ofFinding (root : Path) (f : Finding) : IsShownBy root (ofFinding root f) f :=
  ⟨rfl, rfl, rfl, rfl, rfl, rfl⟩

/-- A value states the numbers of findings of all severities. -/
structure StatesNumbers (value : Json) (number : Severity → Nat) : Prop where
  errors : member? "errors" value = some (.number (number .error))
  warnings : member? "warnings" value = some (.number (number .warning))
  info : member? "info" value = some (.number (number .info))

/-- A report for programs is read as the value that it was made of. -/
theorem read?_render (root : Path) (findings : List Finding) :
    Json.read? (render root findings).toList = some (document root findings) := by
  rw [render, String.toList_append]
  exact Json.read?_pretty _ (by decide)

end Structured

/-- **Reports present every finding once.**  In the report for people, as it is shown, there is a
group of lines for each path that is shown, in the order of the paths: a heading that states the
size of the group and its most serious severity, and an entry for each finding, in the order of the
list. The last line states the numbers of findings by severity, but for those that are zero, and the
number of different paths. In the report for programs, as it is read, the findings stand in the
order of the list, with the numbers of findings by severity. The numbers add up to the length of the
list. -/
theorem reports_present (root : Path) (findings : List Finding) :
    let groups := Terminal.groups root findings
    let lines := Terminal.shownLines root findings
    let document := Structured.document root findings
    let number := fun severity => (findings.filter fun f => f.severity = severity).length
    Terminal.IsPartition root findings groups ∧
      Terminal.visible (Terminal.render root findings).toList = lines.flatMap (· ++ ['\n']) ∧
      (findings = [] → lines = Terminal.allClear) ∧
      (findings ≠ [] → Terminal.ShowsReport groups ⟨Terminal.numbersBySeverity number,
        (findings.map (shownFile root)).toFinset.card⟩ lines) ∧
      Json.read? (Structured.render root findings).toList = some document ∧
      (∃ items, Structured.member? "findings" document = some (.array items) ∧
        List.Forall₂ (Structured.IsShownBy root) items findings) ∧
      (∃ summary, Structured.member? "summary" document = some summary ∧
        Structured.StatesNumbers summary number) ∧
      number .error + number .warning + number .info = findings.length := by
  intro groups lines document number
  have hnumber : (fun severity => count severity findings) = number := by
    funext severity
    exact List.countP_eq_length_filter
  have hpartition := Terminal.isPartition_groups root findings
  refine ⟨hpartition, Terminal.visible_lines _, ?_, ?_, Structured.read?_render root findings, ?_,
    ?_, ?_⟩
  · rintro rfl
    exact Terminal.shownLines_nil root
  · intro hne
    rw [← hnumber, ← hpartition.length_eq]
    exact Terminal.showsReport_shownLines hne
  · refine ⟨_, rfl, ?_⟩
    rw [List.forall₂_map_left_iff, List.forall₂_same]
    intro f _
    exact Structured.isShownBy_ofFinding root f
  · rw [← hnumber]
    exact ⟨Structured.summary findings, rfl, rfl, rfl, rfl⟩
  · rw [← hnumber]
    exact count_add_count_add_count findings

/-- The theorem applies to findings of two files, one of them given by two paths that are shown in
the same way, between which a finding of the other file stands. A message holds control sequences,
the last of which is left open. -/
theorem reports_present_merged :
    let root : Path := ⟨"/p"⟩
    let first : Finding := ⟨⟨"/p/b.yml"⟩, 3, "fqcn", "fqcn[action]", .warning, "Use FQCN."⟩
    let other : Finding := ⟨⟨"/p//a.yml"⟩, 9, "no-handler", "no-handler", .info, "Use a handler."⟩
    let second : Finding :=
      ⟨⟨"b.yml"⟩, 12345, "fqcn", "fqcn[action]", .error, "Use \x1b[1m\"FQCN\"\x1b[0m.\x1b["⟩
    let findings := [first, other, second]
    let lines := Terminal.shownLines root findings
    findings ≠ [] ∧
      Terminal.visible (Terminal.render root findings).toList = lines.flatMap (· ++ ['\n']) ∧
      Terminal.ShowsReport [⟨"a.yml", [other]⟩, ⟨"b.yml", [first, second]⟩]
        ⟨[(.error, 1), (.warning, 1), (.info, 1)], 2⟩ lines ∧
      "  ✗ b.yml (2)".toList ∈ lines ∧
      "      L12345 fqcn[action] Use \"FQCN\".\x1b[".toList ∈ lines ∧
      Json.read? (Structured.render root findings).toList =
        some (Structured.document root findings) ∧
      ∃ items, Structured.member? "findings" (Structured.document root findings) =
          some (.array items) ∧ List.Forall₂ (Structured.IsShownBy root) items findings := by
  intro root first other second findings lines
  obtain ⟨-, hrender, -, hreport, hread, hitems, -⟩ := reports_present root findings
  have hne : findings ≠ [] := List.cons_ne_nil _ _
  have hgroups : Terminal.groups root findings =
      [⟨"a.yml", [other]⟩, ⟨"b.yml", [first, second]⟩] := by decide
  have hnumber : (fun severity => (findings.filter fun f => f.severity = severity).length) =
      fun _ => 1 := by
    funext severity
    cases severity <;> rfl
  have hfiles : (findings.map (shownFile root)).toFinset.card = 2 := by decide
  have hshows := hreport hne
  rw [hgroups, hnumber, hfiles] at hshows
  have hline : ∀ line ∈ Terminal.groupLines ⟨"b.yml", [first, second]⟩,
      Terminal.visible line.toList ∈ lines := by
    intro line hline
    refine List.mem_map.mpr ⟨line, ?_, rfl⟩
    rw [Terminal.lines, if_neg (by decide), hgroups]
    exact List.mem_append_left _ (List.mem_flatMap.mpr ⟨_, List.mem_cons_of_mem _ (by simp), hline⟩)
  have hheading : Terminal.visible (Terminal.header ⟨"b.yml", [first, second]⟩).toList =
      "  ✗ b.yml (2)".toList := by decide
  have hentry : Terminal.visible (Terminal.findingLine second).toList =
      "      L12345 fqcn[action] Use \"FQCN\".\x1b[".toList := by decide
  refine ⟨hne, hrender, hshows, ?_, ?_, hread, hitems⟩
  · rw [← hheading]
    exact hline _ (by simp [Terminal.groupLines])
  · rw [← hentry]
    exact hline _ (by simp [Terminal.groupLines])

end PlaybookLint.Report
