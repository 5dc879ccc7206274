import Mathlib.Data.List.TakeWhile
import PlaybookLint.Task
import PlaybookLint.Text.Basic
import PlaybookLint.Text.Number

/-!
# Words and the text they make up

Words that are joined by blanks are found again in the text, if no blank in them stands outside
quotes and if all quotes that are opened in a word before the last are closed in it.

## Main definitions

* `Quoting.after` - where the character after some text stands.
* `Quoting.Unbroken` - no character of a text divides words.
* `Quoting.Joinable` - words that are found again when they have been joined.

## Main statements

* `splitWords_intercalate` - splitting a text gives the words that have been joined to it.
* `Text.splitOnce_append`, `Text.trim_eq_self` - the same for a text that is cut once, and for one
  without blanks at its ends.
* `Text.cutAt?_append` - a text is cut where a piece of text occurs first.
* `Text.hasPiece_iff` - looking for a piece of text finds it wherever it stands.
-/

namespace PlaybookLint

namespace Text

/-! ### Numbers -/

theorem isDigit_of_mem_toString {n : Nat} {c : Char} (h : c ∈ (toString n).toList) :
    c.isDigit = true := by
  rw [Nat.toString_eq_ofList_toDigits, String.toList_ofList] at h
  exact Nat.isDigit_of_mem_toDigits (by decide) (by decide) h

theorem notMem_toString {c : Char} (h : c.isDigit = false) (n : Nat) :
    c ∉ (toString n).toList := by
  intro hmem
  rw [isDigit_of_mem_toString hmem] at h
  exact Bool.noConfusion h

theorem toString_ne_nil (n : Nat) : (toString n).toList ≠ [] := by
  rw [Nat.toString_eq_ofList_toDigits, String.toList_ofList]
  exact Nat.toDigits_ne_nil

theorem digitsValue_toString (n : Nat) : digitsValue (toString n).toList = n := by
  rw [Nat.toString_eq_ofList_toDigits, String.toList_ofList, digitsValue,
    ← Nat.ofDigitChars_eq_foldl]
  exact Nat.ofDigitChars_ten_toDigits

/-! ### Cutting and trimming -/

theorem toList_pushn (text : String) (c : Char) (n : Nat) :
    (text.pushn c n).toList = text.toList ++ List.replicate n c := by
  induction n with
  | zero => simp [String.pushn, Nat.repeat]
  | succ n ih =>
      rw [List.replicate_succ', ← List.append_assoc, ← ih]
      exact String.toList_push c

theorem toList_padRight (width : Nat) (text : String) :
    (padRight width text).toList =
      text.toList ++ List.replicate (width - text.toList.length) ' ' := by
  rw [padRight, toList_pushn, String.length_toList]

theorem splitAll_eq_splitOn (sep : Char) (cs : List Char) :
    splitAll sep cs = cs.splitOn sep := by
  induction cs with
  | nil => rfl
  | cons c cs ih =>
      rw [splitAll, List.splitOn, List.splitOnP_cons_eq_if_modifyHead, ← List.splitOn, ← ih]
      by_cases hc : c = sep
      · rw [if_pos hc, if_pos (beq_iff_eq.mpr hc)]
      · rw [if_neg hc, if_neg (mt beq_iff_eq.mp hc)]
        cases hpieces : splitAll sep cs with
        | nil => exact absurd hpieces (splitAll_ne_nil sep cs)
        | cons piece pieces => rfl

/-- A separator divides the pieces before it from those after it. -/
theorem splitAll_append_cons (sep : Char) (cs ds : List Char) :
    splitAll sep (cs ++ sep :: ds) = splitAll sep cs ++ splitAll sep ds := by
  simp only [splitAll_eq_splitOn]
  exact List.splitOnP_append_cons cs ds (beq_self_eq_true sep)

/-- A text without the separator is one piece. -/
theorem splitAll_eq_singleton {sep : Char} {cs : List Char} (h : sep ∉ cs) :
    splitAll sep cs = [cs] := by
  rw [splitAll_eq_splitOn]
  exact List.splitOn_eq_singleton h

/-- Pieces without the separator are found again when they have been joined by it. -/
theorem splitAll_intercalate {sep : Char} {pieces : List (List Char)} (hne : pieces ≠ [])
    (h : ∀ piece ∈ pieces, sep ∉ piece) : splitAll sep ([sep].intercalate pieces) = pieces := by
  rw [splitAll_eq_splitOn]
  exact List.splitOn_intercalate sep h hne

theorem isSome_dropPrefix?_iff {start cs : List Char} :
    (dropPrefix? start cs).isSome = true ↔ start <+: cs := by
  simp only [Option.isSome_iff_exists, dropPrefix?_eq_some_iff]
  exact ⟨fun ⟨rest, h⟩ => ⟨rest, h.symm⟩, fun ⟨rest, h⟩ => ⟨rest, h.symm⟩⟩

/-- A piece occurs in a text if it stands between two parts of it. -/
theorem hasPiece_iff {piece cs : List Char} : hasPiece piece cs = true ↔ piece <:+: cs := by
  induction cs with
  | nil =>
      rw [List.infix_nil]
      cases piece <;> simp [hasPiece, cutAt?]
  | cons c cs ih =>
      rw [List.infix_cons_iff, ← isSome_dropPrefix?_iff, ← ih]
      simp only [hasPiece, cutAt?]
      cases dropPrefix? piece (c :: cs) <;> simp

/-- A text is cut where a piece occurs first, which is not before its first character does. -/
theorem cutAt?_append {before piece : List Char} (hne : piece ≠ [])
    (h : ∀ c ∈ piece.head?, c ∉ before) (rest : List Char) :
    cutAt? piece (before ++ (piece ++ rest)) = some (before, rest) := by
  obtain ⟨c, cs, rfl⟩ := List.exists_cons_of_ne_nil hne
  induction before with
  | nil =>
      have hdrop : dropPrefix? (c :: cs) (c :: (cs ++ rest)) = some rest :=
        dropPrefix?_eq_some_iff.mpr rfl
      rw [List.nil_append, List.cons_append, cutAt?, hdrop]
  | cons b before ih =>
      obtain ⟨hb, hbefore⟩ := not_or.mp (mt List.mem_cons.mpr (h c rfl))
      rw [List.cons_append, cutAt?, dropPrefix?, if_neg hb, ih fun d hd => ?_]
      · rfl
      · cases hd
        exact hbefore

theorem splitOnce_append {p : Char → Bool} {before : List Char} (h : ∀ c ∈ before, p c = false)
    {c : Char} (hc : p c = true) (rest : List Char) :
    splitOnce p (before ++ c :: rest) = some (before, rest) := by
  induction before with
  | nil => simp [splitOnce, hc]
  | cons b before ih =>
      obtain ⟨hb, hbefore⟩ := List.forall_mem_cons.mp h
      simp [splitOnce, hb, ih hbefore]

theorem splitOnce_eq_none {p : Char → Bool} {cs : List Char} (h : ∀ c ∈ cs, p c = false) :
    splitOnce p cs = none := by
  induction cs with
  | nil => rfl
  | cons c cs ih =>
      obtain ⟨hc, hcs⟩ := List.forall_mem_cons.mp h
      simp [splitOnce, hc, ih hcs]

/-- After the last separator stands what holds none. -/
theorem afterLast_append_cons {sep : Char} {word : List Char} (h : sep ∉ word) (cs : List Char) :
    afterLast sep (cs ++ sep :: word) = word := by
  have hword : ∀ c ∈ word.reverse, decide (c ≠ sep) = true := by
    intro c hc
    exact decide_eq_true fun hsame => h (hsame ▸ List.mem_reverse.mp hc)
  have hstop : (sep :: cs.reverse).takeWhile (· ≠ sep) = [] :=
    List.takeWhile_cons_of_neg (by simp)
  rw [afterLast, List.reverse_append, List.reverse_cons, List.append_assoc,
    List.takeWhile_append_of_pos hword, List.singleton_append, hstop, List.append_nil,
    List.reverse_reverse]

/-- A text without the separator is what stands after it. -/
theorem afterLast_eq_self {sep : Char} {cs : List Char} (h : sep ∉ cs) : afterLast sep cs = cs := by
  have hall : ∀ c ∈ cs.reverse, decide (c ≠ sep) = true := by
    intro c hc
    exact decide_eq_true fun hsame => h (hsame ▸ List.mem_reverse.mp hc)
  rw [afterLast, List.takeWhile_eq_self_iff.mpr hall, List.reverse_reverse]

theorem dropWhile_isBlank_eq_self {cs : List Char} (h : ∀ c ∈ cs.head?, isBlank c = false) :
    cs.dropWhile isBlank = cs := by
  cases cs with
  | nil => rfl
  | cons c cs => simp [h c rfl]

/-- The end of a text is trimmed by cutting blanks off it. -/
theorem exists_trimEnd_append (cs : List Char) :
    ∃ gap, cs = trimEnd cs ++ gap ∧ ∀ c ∈ gap, isBlank c = true := by
  refine ⟨(cs.reverse.takeWhile isBlank).reverse, ?_, fun c hc => ?_⟩
  · rw [trimEnd, ← List.reverse_append, List.takeWhile_append_dropWhile, List.reverse_reverse]
  · exact List.mem_takeWhile_imp (List.mem_reverse.mp hc)

/-- Trimming the end of a text leaves everything up to a character that is not blank. -/
theorem trimEnd_append {cs : List Char} (h : ∀ c ∈ cs.getLast?, isBlank c = false)
    (rest : List Char) : trimEnd (cs ++ rest) = cs ++ trimEnd rest := by
  have hend : cs.reverse.dropWhile isBlank = cs.reverse :=
    dropWhile_isBlank_eq_self (by simpa using h)
  rw [trimEnd, trimEnd, List.reverse_append, List.dropWhile_append, hend]
  split
  next hempty => simp [List.isEmpty_iff.mp hempty]
  next => rw [List.reverse_append, List.reverse_reverse]

/-- A text that neither begins nor ends with a blank stays as it is. -/
theorem trim_eq_self {cs : List Char} (hfirst : ∀ c ∈ cs.head?, isBlank c = false)
    (hlast : ∀ c ∈ cs.getLast?, isBlank c = false) : trim cs = cs := by
  have hend : ∀ c ∈ cs.reverse.head?, isBlank c = false := by
    simpa using hlast
  rw [trim, trimStart, dropWhile_isBlank_eq_self hfirst, trimEnd, dropWhile_isBlank_eq_self hend,
    List.reverse_reverse]

end Text

/-! ### Quotes -/

namespace Quoting

/-- Where the character after a text stands, if the text begins at `s`. -/
def after (s : Quoting) (cs : List Char) : Quoting :=
  cs.foldl next s

@[simp] theorem after_nil (s : Quoting) : s.after [] = s :=
  rfl

@[simp] theorem after_cons (s : Quoting) (c : Char) (cs : List Char) :
    s.after (c :: cs) = (s.next c).after cs :=
  rfl

@[simp] theorem after_append (s : Quoting) (cs ds : List Char) :
    s.after (cs ++ ds) = (s.after cs).after ds :=
  List.foldl_append

/-- No character divides words, in a text that begins at a place. -/
def Unbroken : Quoting → List Char → Prop
  | _, [] => True
  | s, c :: cs => s.isDivider c = false ∧ Unbroken (s.next c) cs

@[simp] theorem unbroken_nil (s : Quoting) : s.Unbroken [] :=
  trivial

@[simp] theorem unbroken_cons {s : Quoting} {c : Char} {cs : List Char} :
    s.Unbroken (c :: cs) ↔ s.isDivider c = false ∧ (s.next c).Unbroken cs :=
  Iff.rfl

@[simp] theorem unbroken_append {s : Quoting} {cs ds : List Char} :
    s.Unbroken (cs ++ ds) ↔ s.Unbroken cs ∧ (s.after cs).Unbroken ds := by
  induction cs generalizing s with
  | nil => simp
  | cons c cs ih => simp [ih, and_assoc]

/-- A text without quotes does not enter any. -/
theorem after_outside {cs : List Char} (h : ∀ c ∈ cs, c ≠ '"' ∧ c ≠ '\'') :
    outside.after cs = outside := by
  induction cs with
  | nil => rfl
  | cons c cs ih =>
      obtain ⟨⟨hdouble, hsingle⟩, hcs⟩ := List.forall_mem_cons.mp h
      simp [next, hdouble, hsingle, ih hcs]

theorem unbroken_outside {cs : List Char} (h : ∀ c ∈ cs, c ≠ '"' ∧ c ≠ '\'')
    (hblank : ∀ c ∈ cs, Text.isBlank c = false) : outside.Unbroken cs := by
  induction cs with
  | nil => trivial
  | cons c cs ih =>
      obtain ⟨⟨hdouble, hsingle⟩, hcs⟩ := List.forall_mem_cons.mp h
      obtain ⟨hc, hblank⟩ := List.forall_mem_cons.mp hblank
      simp [isDivider, next, hdouble, hsingle, hc, ih hcs hblank]

/-- Double quotes go on until another one, as long as nothing is escaped, and nothing divides words
in them. -/
theorem after_inside {cs : List Char} (h : ∀ c ∈ cs, c ≠ '"' ∧ c ≠ '\\') :
    (inside '"').after cs = inside '"' ∧ (inside '"').Unbroken cs := by
  induction cs with
  | nil => exact ⟨rfl, trivial⟩
  | cons c cs ih =>
      obtain ⟨⟨hquote, hescape⟩, hcs⟩ := List.forall_mem_cons.mp h
      have hnext : (inside '"').next c = inside '"' := by simp [next, hquote, hescape]
      have hdivider : (inside '"').isDivider c = false := rfl
      rw [after_cons, unbroken_cons, hnext]
      exact ⟨(ih hcs).1, hdivider, (ih hcs).2⟩

/-- Words that can be told apart when they have been joined: no blank in them stands outside quotes,
and the quotes in all but the last are closed. -/
inductive Joinable : List (List Char) → Prop
  | nil : Joinable []
  | last {word : List Char} (ne : word ≠ []) (unbroken : outside.Unbroken word) : Joinable [word]
  | cons {word : List Char} {words : List (List Char)} (ne : word ≠ [])
      (unbroken : outside.Unbroken word) (closed : outside.after word = outside)
      (later : Joinable words) : Joinable (word :: words)

theorem joinable_of_forall {words : List (List Char)}
    (h : ∀ word ∈ words, word ≠ [] ∧ outside.Unbroken word ∧ outside.after word = outside) :
    Joinable words := by
  induction words with
  | nil => exact .nil
  | cons word words ih =>
      obtain ⟨⟨hne, hunbroken, hclosed⟩, hwords⟩ := List.forall_mem_cons.mp h
      exact .cons hne hunbroken hclosed (ih hwords)

end Quoting

/-! ### Splitting what has been joined -/

theorem finishWord_reverse {word : List Char} (h : word ≠ []) :
    finishWord word.reverse = [word] := by
  simp [finishWord, h]

/-- Where nothing divides words, characters are collected. -/
theorem splitWordsFrom_append {s : Quoting} {piece : List Char} (h : s.Unbroken piece)
    (current rest : List Char) : splitWordsFrom s current (piece ++ rest) =
      splitWordsFrom (s.after piece) (piece.reverse ++ current) rest := by
  induction piece generalizing s current with
  | nil => rfl
  | cons c piece ih =>
      obtain ⟨hc, hpiece⟩ := h
      rw [List.cons_append, splitWordsFrom, hc]
      simp [ih hpiece]

theorem intercalate_cons (sep : α) (word : List α) (words : List (List α)) :
    [sep].intercalate (word :: words) = word ++ words.flatMap (sep :: ·) := by
  induction words generalizing word with
  | nil => simp [List.intercalate]
  | cons next words ih =>
      rw [List.flatMap_cons, List.cons_append, ← ih next]
      simp [List.intercalate]

/-- **Splitting undoes joining.** -/
theorem splitWords_intercalate {words : List (List Char)} (h : Quoting.Joinable words) :
    splitWords ([' '].intercalate words) = words := by
  induction h with
  | nil => rfl
  | @last word hne hunbroken =>
      rw [intercalate_cons, List.flatMap_nil, splitWords, splitWordsFrom_append hunbroken,
        List.append_nil, splitWordsFrom, finishWord_reverse hne]
  | @cons word words hne hunbroken hclosed hlater ih =>
      rw [intercalate_cons, splitWords, splitWordsFrom_append hunbroken, hclosed, List.append_nil]
      cases words with
      | nil => rw [List.flatMap_nil, splitWordsFrom, finishWord_reverse hne]
      | cons next words =>
          -- the blank between the words ends the first one
          have hblank : Quoting.outside.isDivider ' ' = true := by decide
          rw [List.flatMap_cons, List.cons_append, ← intercalate_cons, splitWordsFrom, hblank,
            if_pos rfl, finishWord_reverse hne, ← splitWords, ih, List.singleton_append]

end PlaybookLint
