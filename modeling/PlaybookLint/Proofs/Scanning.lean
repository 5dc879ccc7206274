import Mathlib.Data.Nat.Find
import PlaybookLint.Comment
import PlaybookLint.Proofs.Words

/-!
# Scanning for comments

A line is scanned once, from its first character on, while the place in the whole text is counted
along; and whether a place is quoted is looked up in the sorted ranges. What this comes to is plain:
a line has a comment if some `#` on it can open one, and its comment opens at the first such `#`.

## Main definitions

* `CharRange.Holds`, `CharRange.Apart` - the characters of a range, and ranges that share none.
* `bisect` - searching by halves.
* `Text.IsTrimmed` - what is left of a text when the blanks at its end are cut off.
* `textBefore` - what stands before a line in the whole text.
* `OpensComment`, `IsCommentOf` - where a comment can open, and the comment of a line.

## Main statements

* `isCovered_eq_any` - looking a character up in sorted ranges is asking all of them.
* `getElem?_bisect` - the range that is looked up is found by halving.
* `commentOn?_eq_some_iff` - the comment that is found on a line.
* `mem_scanLines_iff` - the comments that are found on some lines.
* `scanComments_plain` - scanning is the plain definition.
-/

namespace PlaybookLint

/-! ### Trimmed texts -/

namespace Text

/-- A text is what is left of another one when the blanks at its end are cut off. -/
structure IsTrimmed (whole text : List Char) : Prop where
  blanks_after : ∃ blanks, whole = text ++ blanks ∧ ∀ c ∈ blanks, isBlank c = true
  last_nonblank : ∀ c ∈ text.getLast?, isBlank c = false

theorem isTrimmed_trimEnd (cs : List Char) : IsTrimmed cs (trimEnd cs) where
  blanks_after := exists_trimEnd_append cs
  last_nonblank c hc := by
    rw [trimEnd, List.getLast?_reverse] at hc
    have hfirst := List.head?_dropWhile_not isBlank cs.reverse
    rw [Option.mem_def.mp hc] at hfirst
    exact hfirst

/-- There is one way to cut off the blanks at the end of a text. -/
theorem isTrimmed_iff {whole text : List Char} : IsTrimmed whole text ↔ text = trimEnd whole := by
  refine ⟨fun h => ?_, fun h => h ▸ isTrimmed_trimEnd whole⟩
  obtain ⟨blanks, rfl, hblanks⟩ := h.blanks_after
  have hnothing : trimEnd blanks = [] := by
    rw [trimEnd, List.dropWhile_eq_nil_iff.mpr (by simpa using hblanks), List.reverse_nil]
  rw [trimEnd_append h.last_nonblank, hnothing, List.append_nil]

end Text

/-! ### Ranges -/

namespace CharRange

/-- A character lies in the range. -/
def Holds (r : CharRange) (index : Nat) : Prop :=
  r.start ≤ index ∧ index < r.stop

instance (r : CharRange) (index : Nat) : Decidable (r.Holds index) :=
  inferInstanceAs (Decidable (_ ∧ _))

/-- No character lies in both ranges. -/
def Apart (a b : CharRange) : Prop :=
  ∀ index, ¬ (a.Holds index ∧ b.Holds index)

theorem Apart.symm {a b : CharRange} (h : a.Apart b) : b.Apart a :=
  fun index hindex => h index hindex.symm

theorem apart_of_stop_le {a b : CharRange} (h : a.stop ≤ b.start) : a.Apart b :=
  fun _ ⟨ha, hb⟩ => absurd (Nat.lt_of_lt_of_le ha.2 h) (Nat.not_lt.mpr hb.1)

/-- Of two ranges that are apart, the one that starts later starts after the other one, unless there
is nothing in it. -/
theorem Apart.stop_le {a b : CharRange} (h : a.Apart b) (hne : b.start < b.stop)
    (hstart : a.start ≤ b.start) : a.stop ≤ b.start := by
  by_contra hstop
  exact h b.start ⟨⟨hstart, by omega⟩, ⟨Nat.le_refl _, hne⟩⟩

end CharRange

section Ranges

variable {ranges : List CharRange}

theorem mem_sortRanges {r : CharRange} : r ∈ sortRanges ranges ↔ r ∈ ranges :=
  (List.mergeSort_perm ranges _).mem_iff

/-- Sorting ranges that are apart puts each behind the end of the one before. -/
theorem pairwise_sortRanges (hne : ∀ r ∈ ranges, r.start < r.stop)
    (hapart : ranges.Pairwise CharRange.Apart) :
    (sortRanges ranges).Pairwise fun a b => a.stop ≤ b.start := by
  have hsorted : (sortRanges ranges).Pairwise fun a b => decide (a.start ≤ b.start) = true := by
    refine List.pairwise_mergeSort (fun a b c hab hbc => ?_) (fun a b => ?_) ranges
    · rw [decide_eq_true_eq] at *
      omega
    · rw [Bool.or_eq_true, decide_eq_true_eq, decide_eq_true_eq]
      omega
  have hstill : (sortRanges ranges).Pairwise CharRange.Apart :=
    (List.mergeSort_perm ranges _).symm.pairwise hapart fun h => h.symm
  refine (hsorted.and hstill).imp_of_mem fun {a b} _ hb h => ?_
  exact h.2.stop_le (hne b (mem_sortRanges.mp hb)) (of_decide_eq_true h.1)

/-- **Looking a character up in sorted ranges** is asking all of them. -/
theorem isCovered_eq_any (h : ranges.Pairwise fun a b => a.stop ≤ b.start) (index : Nat) :
    isCovered ranges index = ranges.any fun r => decide (r.Holds index) := by
  induction ranges with
  | nil => rfl
  | cons r ranges ih =>
      obtain ⟨hfirst, hrest⟩ := List.pairwise_cons.mp h
      rw [isCovered, List.any_cons]
      by_cases hstop : index < r.stop
      · -- the ranges behind this one start after the character
        have hlater : (ranges.any fun r => decide (r.Holds index)) = false := by
          refine List.any_eq_false.mpr fun b hb => ?_
          intro hholds
          have hstart := (of_decide_eq_true hholds).1
          exact absurd (hfirst b hb) (by omega)
        rw [List.find?_cons_of_pos (by simpa using hstop), Option.any_some, hlater, Bool.or_false]
        simp [CharRange.Holds, hstop]
      · have hnot : ¬ r.Holds index := fun hholds => hstop hholds.2
        rw [List.find?_cons_of_neg (by simpa using hstop), decide_eq_false hnot, Bool.false_or,
          ← ih hrest, isCovered]

end Ranges

/-! ### Searching by halves -/

/-- How many elements at the beginning of a list satisfy `p`, if none does after one that does not:
those before `low` do, those from `high` on do not, and what is between is halved. -/
def bisect (p : α → Bool) (xs : List α) (low high : Nat) : Nat :=
  if low < high then
    let middle := (low + high) / 2
    if xs[middle]?.any p then bisect p xs (middle + 1) high else bisect p xs low middle
  else low
termination_by high - low

/-- Halving ends at the place up to which elements satisfy `p`. -/
theorem bisect_eq {p : α → Bool} {xs : List α} {low high k : Nat}
    (hbefore : ∀ i < k, xs[i]?.any p = true) (hafter : ∀ i, k ≤ i → xs[i]?.any p = false)
    (hlow : low ≤ k) (hhigh : k ≤ high) : bisect p xs low high = k := by
  fun_induction bisect p xs low high with
  | case1 low high hlt middle hsat ih =>
      refine ih ?_ hhigh
      by_contra hk
      exact Bool.false_ne_true ((hafter middle (by omega)).symm.trans hsat)
  | case2 low high hlt middle hnot ih =>
      refine ih hlow ?_
      by_contra hk
      exact hnot (hbefore middle (by omega))
  | case3 low high hge => omega

/-- Where no element satisfies `p` after one that does not, those that do come first. -/
theorem exists_append_of_pairwise {p : α → Bool} {xs : List α}
    (h : xs.Pairwise fun a b => p b = true → p a = true) :
    ∃ front back, xs = front ++ back ∧ (∀ x ∈ front, p x = true) ∧ ∀ x ∈ back, p x = false := by
  induction xs with
  | nil => exact ⟨[], [], rfl, nofun, nofun⟩
  | cons x xs ih =>
      obtain ⟨hx, hxs⟩ := List.pairwise_cons.mp h
      cases hp : p x with
      | true =>
          obtain ⟨front, back, rfl, hfront, hback⟩ := ih hxs
          exact ⟨x :: front, back, rfl, List.forall_mem_cons.mpr ⟨hp, hfront⟩, hback⟩
      | false =>
          refine ⟨[], x :: xs, rfl, nofun, List.forall_mem_cons.mpr ⟨hp, fun y hy => ?_⟩⟩
          exact Bool.eq_false_iff.mpr fun hpy => Bool.false_ne_true (hp.symm.trans (hx y hy hpy))

/-- **Halving finds the first element that does not satisfy `p`**, if no later one does. -/
theorem getElem?_bisect {p : α → Bool} {xs : List α}
    (h : xs.Pairwise fun a b => p b = true → p a = true) :
    xs[bisect p xs 0 xs.length]? = xs.find? fun x => !p x := by
  obtain ⟨front, back, rfl, hfront, hback⟩ := exists_append_of_pairwise h
  have hplace : bisect p (front ++ back) 0 (front ++ back).length = front.length := by
    refine bisect_eq (fun i hi => ?_) (fun i hi => ?_) (Nat.zero_le _) (by simp)
    · rw [List.getElem?_append_left hi, List.getElem?_eq_getElem hi, Option.any_some]
      exact hfront _ (List.getElem_mem hi)
    · rw [List.getElem?_append_right hi]
      cases hat : back[i - front.length]? with
      | none => rfl
      | some x => exact hback x (List.mem_of_getElem? hat)
  have hskip : (front.find? fun x => !p x) = none :=
    List.find?_eq_none.mpr fun x hx => by simp [hfront x hx]
  rw [hplace, List.getElem?_append_right (Nat.le_refl _), Nat.sub_self, List.find?_append, hskip,
    Option.none_or]
  cases back with
  | nil => rfl
  | cons x back => simp [hback x List.mem_cons_self]

/-! ### Places in the whole text -/

/-- What stands before a line in the whole text: the lines above it, each with its line feed. -/
def textBefore (lines : List Line) (n : Nat) : List Char :=
  (lines.take n).flatMap fun line => line ++ ['\n']

@[simp] theorem textBefore_zero (lines : List Line) : textBefore lines 0 = [] :=
  rfl

@[simp] theorem textBefore_succ (line : Line) (lines : List Line) (n : Nat) :
    textBefore (line :: lines) (n + 1) = line ++ '\n' :: textBefore lines n := by
  simp [textBefore]

/-- **A line stands in the whole text** behind what stands before it. -/
theorem textBefore_append_prefix {lines : List Line} {n : Nat} {line : Line}
    (h : lines[n]? = some line) : textBefore lines n ++ line <+: ['\n'].intercalate lines := by
  induction lines generalizing n with
  | nil => exact nomatch h
  | cons first lines ih =>
      cases n with
      | zero =>
          cases h
          cases lines <;> simp
      | succ n =>
          have hne : lines ≠ [] := List.ne_nil_of_mem (List.mem_of_getElem? h)
          obtain ⟨after, hafter⟩ := ih h
          refine ⟨after, ?_⟩
          rw [textBefore_succ, List.append_assoc, List.append_assoc, List.cons_append,
            ← List.append_assoc _ line, hafter, List.intercalate_cons_of_ne_nil hne]
          simp

/-! ### The comment of a line -/

/-- A comment can open at a character of a line, `quoted` being the quoted characters of the text
and `start` the place of the line in the text. -/
structure OpensComment (quoted : Nat → Prop) (start : Nat) (cs : Line) (column : Nat) : Prop where
  hash : cs[column]? = some '#'
  /-- It is the first character, or there is a blank before it. -/
  after_blank : column = 0 ∨ ∃ c, cs[column - 1]? = some c ∧ Text.isBlank c = true
  not_quoted : ¬ quoted (start + column)

/-- A comment is that of a line with a number: it opens at the first character at which one can,
and takes the rest of the line but for the blanks at its end. -/
structure IsCommentOf (quoted : Nat → Prop) (start number : Nat) (line : Line) (c : Comment) :
    Prop where
  line_eq : c.line = number
  /-- Columns are counted from one. -/
  column_pos : 0 < c.column
  opens : OpensComment quoted start line (c.column - 1)
  first : ∀ earlier < c.column - 1, ¬ OpensComment quoted start line earlier
  text : Text.IsTrimmed (line.drop (c.column - 1)) c.text.toList

namespace IsCommentOf

variable {quoted : Nat → Prop} {start number : Nat} {line : Line} {c : Comment}

/-- Comments stand on lines that are not blank. -/
theorem isBlankText_eq_false (h : IsCommentOf quoted start number line c) :
    Text.isBlankText line = false := by
  refine List.all_eq_false.mpr ⟨'#', List.mem_of_getElem? h.opens.hash, ?_⟩
  decide

end IsCommentOf

section Line

variable {covered : Nat → Bool} {start number : Nat} {c : Comment}

/-- What the scan of a line asks at a character is whether a comment can open there. -/
theorem opensComment_length_iff {before : List Char} {d : Char} (cs : List Char) :
    OpensComment (covered · = true) start (before ++ d :: cs) before.length ↔
      (d = '#' && before.getLast?.all Text.isBlank && !covered (start + before.length)) = true := by
  have hat : (before ++ d :: cs)[before.length]? = some d := by simp
  have hblank : (before.length = 0 ∨ ∃ e, (before ++ d :: cs)[before.length - 1]? = some e ∧
      Text.isBlank e = true) ↔ before.getLast?.all Text.isBlank = true := by
    obtain rfl | ⟨front, last, rfl⟩ := List.eq_nil_or_concat before
    · simp
    · simp
  rw [Bool.and_eq_true, Bool.and_eq_true, decide_eq_true_eq, Bool.not_eq_true', ← hblank]
  constructor
  · intro h
    exact ⟨⟨Option.some.inj (hat.symm.trans h.hash), h.after_blank⟩,
      Bool.eq_false_iff.mpr h.not_quoted⟩
  · rintro ⟨⟨rfl, hafter⟩, hcovered⟩
    exact ⟨hat, hafter, Bool.eq_false_iff.mp hcovered⟩

/-- What is left of a line to be scanned decides about its comment, if none can open before. -/
theorem commentOn?_eq_some_iff_of_append {before cs : List Char}
    (h : ∀ earlier < before.length,
      ¬ OpensComment (covered · = true) start (before ++ cs) earlier) :
    commentOn? covered number before.length (start + before.length) before.getLast? cs = some c ↔
      IsCommentOf (covered · = true) start number (before ++ cs) c := by
  induction cs generalizing before with
  | nil =>
      refine iff_of_false (by rw [commentOn?]; exact nofun) fun hc => ?_
      have hlength := (List.getElem?_eq_some_iff.mp hc.opens.hash).1
      exact h _ (by simpa using hlength) hc.opens
  | cons d cs ih =>
      rw [commentOn?]
      split
      next htest =>
        have hopens := (opensComment_length_iff cs).mpr htest
        constructor
        · rintro ⟨⟩
          refine ⟨rfl, Nat.succ_pos _, hopens, h, ?_⟩
          rw [Nat.add_sub_cancel, String.toList_ofList, List.drop_left]
          exact Text.isTrimmed_trimEnd _
        · intro hc
          have hsame : c.column - 1 = before.length := by
            rcases Nat.lt_trichotomy (c.column - 1) before.length with hlt | heq | hgt
            · exact absurd hc.opens (h _ hlt)
            · exact heq
            · exact absurd hopens (hc.first _ hgt)
          have htext := Text.isTrimmed_iff.mp hc.text
          rw [hsame, List.drop_left] at htext
          have hcolumn : c.column = before.length + 1 := by
            have hpos := hc.column_pos
            omega
          rw [← hc.line_eq, ← hcolumn, ← htext, String.ofList_toList]
      next htest =>
        have hnot := mt (opensComment_length_iff cs).mp htest
        have hnext := @ih (before ++ [d])
        simp only [List.append_assoc, List.singleton_append, List.length_append,
          List.length_singleton, List.getLast?_concat, ← Nat.add_assoc] at hnext
        refine hnext fun earlier hearlier => ?_
        obtain hlt | rfl := Nat.lt_succ_iff_lt_or_eq.mp hearlier
        · exact h earlier hlt
        · exact hnot

/-- **The comment that is found on a line** is its comment. -/
theorem commentOn?_eq_some_iff {line : Line} :
    commentOn? covered number 0 start none line = some c ↔
      IsCommentOf (covered · = true) start number line c := by
  have hnone : ∀ earlier < ([] : Line).length,
      ¬ OpensComment (covered · = true) start ([] ++ line) earlier :=
    fun _ h => absurd h (Nat.not_lt_zero _)
  exact commentOn?_eq_some_iff_of_append hnone

end Line

/-! ### The comments of a text -/

/-- A line has a comment exactly if one can open somewhere on it. -/
theorem exists_isCommentOf_iff {quoted : Nat → Prop} {start : Nat} {line : Line} (number : Nat) :
    (∃ c, IsCommentOf quoted start number line c) ↔
      ∃ column, OpensComment quoted start line column := by
  refine ⟨fun ⟨c, hc⟩ => ⟨c.column - 1, hc.opens⟩, fun h => ?_⟩
  classical
  refine ⟨⟨number, Nat.find h + 1, String.ofList (Text.trimEnd (line.drop (Nat.find h)))⟩, rfl,
    Nat.succ_pos _, Nat.find_spec h, fun earlier hearlier => Nat.find_min h hearlier, ?_⟩
  rw [String.toList_ofList]
  exact Text.isTrimmed_trimEnd _

section Lines

variable {covered : Nat → Bool} {blockLines : List Nat} {n index : Nat} {line : Line}
  {lines : List Line} {c : Comment}

/-- Later lines are counted on from the first one. -/
theorem isCommentOf_succ_iff {quoted : Nat → Prop} {i : Nat} {text : Line} :
    IsCommentOf quoted (index + (textBefore (line :: lines) (i + 1)).length) (n + (i + 1)) text c ↔
      IsCommentOf quoted (index + line.length + 1 + (textBefore lines i).length) (n + 1 + i)
        text c := by
  have hindex : index + (textBefore (line :: lines) (i + 1)).length =
      index + line.length + 1 + (textBefore lines i).length := by
    rw [textBefore_succ, List.length_append, List.length_cons]
    omega
  rw [hindex, Nat.add_right_comm n, Nat.add_assoc n]

/-- **The comments that are found on some lines** are those of the single lines that are not left
out. -/
theorem mem_scanLines_iff :
    c ∈ scanLines covered blockLines n index lines ↔
      ∃ i line, lines[i]? = some line ∧ n + i ∉ blockLines ∧
        IsCommentOf (covered · = true) (index + (textBefore lines i).length) (n + i) line c := by
  induction lines generalizing n index with
  | nil => exact iff_of_false nofun fun ⟨_, _, hat, _⟩ => nomatch hat
  | cons line lines ih =>
      have hlater : c ∈ scanLines covered blockLines (n + 1) (index + line.length + 1) lines ↔
          ∃ i text, (line :: lines)[i + 1]? = some text ∧ n + (i + 1) ∉ blockLines ∧
            IsCommentOf (covered · = true)
              (index + (textBefore (line :: lines) (i + 1)).length) (n + (i + 1)) text c := by
        simp only [ih, isCommentOf_succ_iff, List.getElem?_cons_succ, Nat.add_assoc,
          Nat.add_comm 1]
      have hfirst : c ∈ scanLines covered blockLines n index (line :: lines) ↔
          (n ∉ blockLines ∧ IsCommentOf (covered · = true) index n line c) ∨
            c ∈ scanLines covered blockLines (n + 1) (index + line.length + 1) lines := by
        rw [scanLines, ← commentOn?_eq_some_iff]
        by_cases hblock : n ∈ blockLines <;> simp [hblock]
      rw [hfirst, hlater]
      constructor
      · rintro (⟨hblock, hcomment⟩ | ⟨i, hi⟩)
        · exact ⟨0, line, rfl, hblock, hcomment⟩
        · exact ⟨i + 1, hi⟩
      · rintro ⟨i, text, hat, hblock, hcomment⟩
        cases i with
        | zero =>
            cases hat
            exact .inl ⟨hblock, hcomment⟩
        | succ i => exact .inr ⟨i, text, hat, hblock, hcomment⟩

/-- A line has at most one comment, and the comments of a text are found from the top. -/
theorem pairwise_scanLines (covered : Nat → Bool) (blockLines : List Nat) (n index : Nat)
    (lines : List Line) :
    (scanLines covered blockLines n index lines).Pairwise fun c d => c.line < d.line := by
  induction lines generalizing n index with
  | nil => exact .nil
  | cons line lines ih =>
      rw [scanLines]
      split
      · exact ih ..
      · refine List.pairwise_append.mpr ⟨?_, ih .., fun c hc d hd => ?_⟩
        · cases commentOn? covered n 0 index none line with
          | none => exact .nil
          | some c => exact List.pairwise_singleton _ c
        · have hfirst := (commentOn?_eq_some_iff.mp (Option.mem_toList.mp hc)).line_eq
          obtain ⟨i, text, -, -, hlater⟩ := mem_scanLines_iff.mp hd
          have hnumber := hlater.line_eq
          omega

end Lines

/-- The characters in the quoted scalars of a text. -/
def Mask.IsQuoted (mask : Mask) (index : Nat) : Prop :=
  ∃ r ∈ mask.quoted, r.Holds index

/-- **Scanning for comments is the plain definition.**  If nothing is quoted twice, there is exactly
one comment for each line that is not left out and has a `#`, outside of all quoted scalars, that is
its first character or stands behind a blank. The comment begins at the first such `#` of the line,
and comments come in the order of their lines. The places that are looked up are the places of the
characters in the whole text, and looking one up by halves is asking all ranges. -/
theorem scanComments_plain (lines : List Line) {mask : Mask}
    (hne : ∀ r ∈ mask.quoted, r.start < r.stop) (hapart : mask.quoted.Pairwise CharRange.Apart) :
    let found := scanComments lines mask
    found.Pairwise (fun c d => c.line < d.line) ∧
      (∀ c, c ∈ found ↔ ∃ n line, lines[n]? = some line ∧ n + 1 ∉ mask.blockLines ∧
        IsCommentOf mask.IsQuoted (textBefore lines n).length (n + 1) line c) ∧
      (∀ n line, lines[n]? = some line →
        ((∃ c ∈ found, c.line = n + 1) ↔ n + 1 ∉ mask.blockLines ∧
          ∃ column, OpensComment mask.IsQuoted (textBefore lines n).length line column) ∧
        textBefore lines n ++ line <+: ['\n'].intercalate lines) ∧
      ∀ index,
        let sorted := sortRanges mask.quoted.reverse
        let place := bisect (fun r => decide (r.stop ≤ index)) sorted 0 sorted.length
        isCovered sorted index = sorted[place]?.any (fun r => decide (r.start ≤ index)) ∧
          (isCovered sorted index = true ↔ mask.IsQuoted index) := by
  intro found
  have hmem : ∀ r, r ∈ mask.quoted.reverse ↔ r ∈ mask.quoted := fun r => List.mem_reverse
  have hsorted : (sortRanges mask.quoted.reverse).Pairwise fun a b => a.stop ≤ b.start :=
    pairwise_sortRanges (fun r hr => hne r ((hmem r).mp hr))
      (List.pairwise_reverse.mpr (hapart.imp fun h => h.symm))
  have hcovered : ∀ index, isCovered (sortRanges mask.quoted.reverse) index = true ↔
      mask.IsQuoted index := by
    intro index
    simp only [isCovered_eq_any hsorted, List.any_eq_true, decide_eq_true_eq, mem_sortRanges, hmem,
      Mask.IsQuoted]
  have hfound : ∀ c, c ∈ found ↔ ∃ n line, lines[n]? = some line ∧ n + 1 ∉ mask.blockLines ∧
      IsCommentOf mask.IsQuoted (textBefore lines n).length (n + 1) line c := by
    intro c
    have hquoted : (isCovered (sortRanges mask.quoted.reverse) · = true) = mask.IsQuoted :=
      funext fun index => propext (hcovered index)
    simp only [found, scanComments, mem_scanLines_iff, hquoted, Nat.zero_add, Nat.add_comm 1]
  refine ⟨pairwise_scanLines .., hfound, fun n line hline => ⟨?_, textBefore_append_prefix hline⟩,
    fun index => ⟨?_, hcovered index⟩⟩
  · rw [← exists_isCommentOf_iff (n + 1)]
    constructor
    · rintro ⟨c, hc, hnumber⟩
      obtain ⟨m, text, hat, hblock, hcomment⟩ := (hfound c).mp hc
      obtain rfl : m = n := Nat.succ.inj (hcomment.line_eq.symm.trans hnumber)
      cases hat.symm.trans hline
      exact ⟨hblock, c, hcomment⟩
    · rintro ⟨hblock, c, hcomment⟩
      exact ⟨c, (hfound c).mpr ⟨n, line, hline, hblock, hcomment⟩, hcomment.line_eq⟩
  · have hends : (sortRanges mask.quoted.reverse).Pairwise fun a b =>
        decide (b.stop ≤ index) = true → decide (a.stop ≤ index) = true := by
      refine hsorted.imp_of_mem fun {a b} _ hb hab hstop => ?_
      have hfull := hne b ((hmem b).mp (mem_sortRanges.mp hb))
      rw [decide_eq_true_eq] at hstop ⊢
      omega
    rw [isCovered, getElem?_bisect hends]
    simp only [← decide_not, Nat.not_le]

/-- The theorem applies to a text with a quoted scalar of two lines and one of one line, a line that
is left out, and characters that are not ASCII: of the signs only the one behind each scalar that
has a blank before it opens a comment, and none does on the first line. -/
theorem scanComments_plain_quoted :
    let first : Line := "é: \"a # b".toList
    let second : Line := "  # c\" # ü \r".toList
    let lines := [first, second, [], "# masked".toList, "k: '# d' x#y\u00A0# z".toList]
    let mask : Mask := ⟨[⟨36, 41⟩, ⟨3, 16⟩], [4]⟩
    (∀ r ∈ mask.quoted, r.start < r.stop) ∧ mask.quoted.Pairwise CharRange.Apart ∧
      scanComments lines mask = [⟨2, 8, "# ü"⟩, ⟨5, 14, "# z"⟩] ∧
      IsCommentOf mask.IsQuoted 10 2 second ⟨2, 8, "# ü"⟩ ∧
      ¬ ∃ column, OpensComment mask.IsQuoted 0 first column := by
  intro first second lines mask
  have hne : ∀ r ∈ mask.quoted, r.start < r.stop := by simp [mask]
  have hapart : mask.quoted.Pairwise CharRange.Apart :=
    List.pairwise_pair.mpr (CharRange.apart_of_stop_le (by decide)).symm
  have hsort : sortRanges mask.quoted.reverse = [⟨3, 16⟩, ⟨36, 41⟩] :=
    List.mergeSort_of_pairwise (List.pairwise_pair.mpr (by decide))
  have hscan : scanComments lines mask = [⟨2, 8, "# ü"⟩, ⟨5, 14, "# z"⟩] := by
    rw [scanComments, hsort]
    decide
  obtain ⟨-, hfound, hline, -⟩ := scanComments_plain lines hne hapart
  refine ⟨hne, hapart, hscan, ?_, fun h => ?_⟩
  · obtain ⟨n, line, hat, -, hcomment⟩ := (hfound ⟨2, 8, "# ü"⟩).mp (by simp [hscan])
    obtain rfl : n = 1 := (Nat.succ.inj hcomment.line_eq).symm
    cases hat
    exact hcomment
  · obtain ⟨c, hc, hnumber⟩ := (hline 0 first rfl).1.mpr ⟨by decide, h⟩
    rw [hscan] at hc
    simp only [List.mem_cons, List.not_mem_nil, or_false] at hc
    rcases hc with rfl | rfl <;> exact absurd hnumber (by decide)

end PlaybookLint
