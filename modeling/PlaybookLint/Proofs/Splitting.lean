import PlaybookLint.Proofs.QuotedRanges

/-!
# What splitting into words keeps

Splitting a text into words takes away the blanks outside quotes and nothing else, whether or not
the quotes in the text are closed. Every word but the last leaves the reader outside quotes, so the
words are found again when they have been joined.

## Main definitions

* `Text.IsBetween`, `Text.QuotesClosed` - what stands between two quotes, and texts in which no
  quote is left open.
* `withoutGaps` - a text without the blanks outside quotes.

## Main statements

* `Quoting.after_outside_iff` - the reader is outside quotes if none has been left open.
* `joinable_splitWords` - the words of any text are found again when they have been joined.
* `splitWords_append_cons` - a blank outside quotes divides the words before it from those after it.
* `flatten_splitWords` - the words of a text make up the text without the blanks outside quotes.
* `splitWords_lossless` - all of this together.
-/

namespace PlaybookLint

/-! ### Closed quotes -/

namespace Text

/-- What stands between two quotes of a kind does not close them. A backslash escapes a character
between double quotes only. -/
def IsBetween (quote : Char) (body : List Char) : Prop :=
  if quote = '"' then Escaped body else quote ∉ body

/-- Every quote that is opened in a text is closed in it. -/
inductive QuotesClosed : List Char → Prop
  | nil : QuotesClosed []
  | plain {c : Char} {cs : List Char} (ne_double : c ≠ '"') (ne_single : c ≠ '\'')
      (later : QuotesClosed cs) : QuotesClosed (c :: cs)
  | quoted {quote : Char} {body cs : List Char} (opens : quote = '"' ∨ quote = '\'')
      (between : IsBetween quote body) (later : QuotesClosed cs) :
      QuotesClosed (quote :: (body ++ quote :: cs))

theorem isBetween_nil (quote : Char) : IsBetween quote [] := by
  by_cases h : quote = '"' <;> simp [IsBetween, h, Escaped.nil]

/-- A character that neither closes the quotes nor escapes anything may stand between them. -/
theorem IsBetween.cons {quote c : Char} {body : List Char} (h : IsBetween quote body)
    (hquote : c ≠ quote) (hescape : ¬ (quote = '"' ∧ c = '\\')) : IsBetween quote (c :: body) := by
  rw [IsBetween] at *
  split at h
  next hdouble =>
    rw [if_pos hdouble]
    exact .plain (hdouble ▸ hquote) (fun hc => hescape ⟨hdouble, hc⟩) h
  next hsingle =>
    rw [if_neg hsingle]
    simp [Ne.symm hquote, h]

/-- Any character may stand behind a backslash between double quotes. -/
theorem IsBetween.pair {body : List Char} (h : IsBetween '"' body) (c : Char) :
    IsBetween '"' ('\\' :: c :: body) :=
  Escaped.pair c h

end Text

namespace Quoting

theorem next_inside_self (quote : Char) (h : quote = '"' ∨ quote = '\'') :
    (inside quote).next quote = outside := by
  rcases h with rfl | rfl <;> rfl

/-- What stands between two quotes does not close them. -/
theorem after_inside_of_isBetween {quote : Char} {body : List Char}
    (h : Text.IsBetween quote body) : (inside quote).after body = inside quote := by
  rw [Text.IsBetween] at h
  split at h
  next hdouble =>
    subst hdouble
    induction h with
    | nil => rfl
    | plain hquote hescape _ ih => simpa [next, hquote, hescape] using ih
    | pair c _ ih => exact ih
  next hsingle =>
    induction body with
    | nil => rfl
    | cons c body ih =>
        obtain ⟨hc, hbody⟩ := not_or.mp (mt List.mem_cons.mpr h)
        have hnext : (inside quote).next c = inside quote := by
          simp [next, hsingle, Ne.symm hc]
        rw [after_cons, hnext, ih hbody]

/-- A text that begins at a place closes the quotes around that place and all that it opens. -/
def Closes : Quoting → List Char → Prop
  | .outside, cs => Text.QuotesClosed cs
  | .inside quote, cs =>
    ∃ body rest, cs = body ++ quote :: rest ∧ Text.IsBetween quote body ∧ Text.QuotesClosed rest
  | .escaped, cs =>
    ∃ c body rest, cs = c :: (body ++ '"' :: rest) ∧ Text.IsBetween '"' body ∧
      Text.QuotesClosed rest

/-- One more character before a text that closes all quotes. -/
theorem Closes.cons {s : Quoting} {c : Char} {cs : List Char} (h : (s.next c).Closes cs) :
    s.Closes (c :: cs) := by
  cases s with
  | outside =>
      by_cases hopens : c = '"' ∨ c = '\''
      · rw [next, if_pos (by simpa using hopens)] at h
        obtain ⟨body, rest, rfl, hbody, hrest⟩ := h
        exact .quoted hopens hbody hrest
      · rw [next, if_neg (by simpa using hopens)] at h
        rw [not_or] at hopens
        exact .plain hopens.1 hopens.2 h
  | inside quote =>
      by_cases hescape : quote = '"' ∧ c = '\\'
      · obtain ⟨rfl, rfl⟩ := hescape
        obtain ⟨d, body, rest, rfl, hbody, hrest⟩ := h
        exact ⟨_, rest, rfl, hbody.pair d, hrest⟩
      · rw [next, if_neg (by simpa using hescape)] at h
        by_cases hquote : c = quote
        · rw [if_pos hquote] at h
          exact ⟨[], cs, by rw [hquote, List.nil_append], Text.isBetween_nil quote, h⟩
        · rw [if_neg hquote] at h
          obtain ⟨body, rest, rfl, hbody, hrest⟩ := h
          exact ⟨c :: body, rest, rfl, hbody.cons hquote hescape, hrest⟩
  | escaped =>
      obtain ⟨body, rest, rfl, hbody, hrest⟩ := h
      exact ⟨c, body, rest, rfl, hbody, hrest⟩

theorem closes_of_after {s : Quoting} {cs : List Char} (h : s.after cs = outside) :
    s.Closes cs := by
  induction cs generalizing s with
  | nil =>
      rw [after_nil] at h
      subst h
      exact .nil
  | cons c cs ih => exact (ih h).cons

/-- **The reader is outside quotes** if no quote has been left open. -/
theorem after_outside_iff {cs : List Char} :
    outside.after cs = outside ↔ Text.QuotesClosed cs := by
  refine ⟨fun h => closes_of_after h, fun h => ?_⟩
  induction h with
  | nil => rfl
  | plain hdouble hsingle _ ih => simpa [next, hdouble, hsingle] using ih
  | @quoted quote body cs hopens hbody _ ih =>
      have hnext : outside.next quote = inside quote := by simp [next, hopens]
      rw [after_cons, hnext, after_append, after_inside_of_isBetween hbody, after_cons,
        next_inside_self quote hopens, ih]

instance : DecidablePred Text.QuotesClosed :=
  fun _ => decidable_of_iff _ after_outside_iff

/-- What divides words opens no quotes. -/
theorem next_of_isDivider {s : Quoting} {c : Char} (h : s.isDivider c = true) : s.next c = s := by
  obtain ⟨hs, hblank⟩ := Bool.and_eq_true_iff.mp h
  obtain rfl : s = outside := of_decide_eq_true hs
  have hopens : ¬ (c = '"' ∨ c = '\'') := by
    rintro (rfl | rfl)
    · exact absurd hblank (by decide)
    · exact absurd hblank (by decide)
  rw [next, if_neg (by simpa using hopens)]

/-- Blanks behind a text without open quotes divide words, and nothing else does. -/
theorem isDivider_after_iff {before : List Char} {c : Char} :
    (outside.after before).isDivider c = true ↔
      Text.isBlank c = true ∧ Text.QuotesClosed before := by
  rw [isDivider, Bool.and_eq_true, decide_eq_true_eq, after_outside_iff, and_comm]

end Quoting

/-- What is left of a text that stands behind `before` without the blanks outside quotes. -/
def withoutGaps (before : List Char) : List Char → List Char
  | [] => []
  | c :: cs =>
    if Text.isBlank c ∧ Text.QuotesClosed before then withoutGaps (before ++ [c]) cs
    else c :: withoutGaps (before ++ [c]) cs

/-- Nothing but blanks is taken away. -/
theorem filter_withoutGaps (before cs : List Char) :
    (withoutGaps before cs).filter (fun c => !Text.isBlank c) =
      cs.filter fun c => !Text.isBlank c := by
  induction cs generalizing before with
  | nil => rfl
  | cons c cs ih =>
      rw [withoutGaps]
      split
      next hgap => rw [List.filter_cons_of_neg (by simp [hgap.1]), ih]
      next => rw [List.filter_cons, List.filter_cons, ih]

/-! ### The words of a text -/

@[simp] theorem flatten_finishWord (current : List Char) :
    (finishWord current).flatten = current.reverse := by
  cases current <;> simp [finishWord]

theorem joinable_finishWord {current : List Char} {words : List (List Char)}
    (hunbroken : Quoting.outside.Unbroken current.reverse)
    (hclosed : Quoting.outside.after current.reverse = .outside) (h : Quoting.Joinable words) :
    Quoting.Joinable (finishWord current ++ words) := by
  cases current with
  | nil => exact h
  | cons c current => exact .cons (by simp) hunbroken hclosed h

/-- The words of what is left of a text, the reader standing where the characters that have been
collected lead to. -/
theorem joinable_splitWordsFrom {current : List Char}
    (h : Quoting.outside.Unbroken current.reverse) (cs : List Char) :
    Quoting.Joinable (splitWordsFrom (Quoting.outside.after current.reverse) current cs) := by
  induction cs generalizing current with
  | nil =>
      rw [splitWordsFrom]
      cases current with
      | nil => exact .nil
      | cons c current => exact .last (by simp) h
  | cons c cs ih =>
      rw [splitWordsFrom]
      split
      next hdivider =>
        -- a blank divides words outside quotes only
        have hclosed := Quoting.after_outside_iff.mpr (Quoting.isDivider_after_iff.mp hdivider).2
        have hlater := @ih [] trivial
        rw [List.reverse_nil, Quoting.after_nil] at hlater
        rw [hclosed]
        exact joinable_finishWord h hclosed hlater
      next hkept =>
        have hnext := @ih (c :: current)
        rw [List.reverse_cons, Quoting.after_append] at hnext
        exact hnext (Quoting.unbroken_append.mpr ⟨h, Bool.eq_false_iff.mpr hkept, trivial⟩)

/-- **The words of any text are found again** when they have been joined. -/
theorem joinable_splitWords (cs : List Char) : Quoting.Joinable (splitWords cs) :=
  @joinable_splitWordsFrom [] trivial cs

theorem Quoting.Joinable.nil_notMem {words : List (List Char)} (h : Quoting.Joinable words) :
    [] ∉ words := by
  induction h with
  | nil => exact List.not_mem_nil
  | last hne _ => simpa using hne.symm
  | cons hne _ _ _ ih => simpa [hne.symm] using ih

theorem splitWordsFrom_append_cons {s : Quoting} {before : List Char}
    (h : s.after before = .outside) {c : Char} (hc : Text.isBlank c = true)
    (current rest : List Char) :
    splitWordsFrom s current (before ++ c :: rest) =
      splitWordsFrom s current before ++ splitWords rest := by
  induction before generalizing s current with
  | nil =>
      rw [Quoting.after_nil] at h
      have hdivider : s.isDivider c = true := by simp [h, Quoting.isDivider, hc]
      rw [List.nil_append, splitWordsFrom, splitWordsFrom, if_pos hdivider, splitWords, h]
  | cons d before ih =>
      rw [List.cons_append, splitWordsFrom, splitWordsFrom]
      split
      next hdivider =>
        rw [Quoting.after_cons, Quoting.next_of_isDivider hdivider] at h
        rw [ih h, List.append_assoc]
      next => rw [ih h]

/-- **A blank outside quotes divides words.** -/
theorem splitWords_append_cons {before : List Char} (h : Text.QuotesClosed before) {c : Char}
    (hc : Text.isBlank c = true) (rest : List Char) :
    splitWords (before ++ c :: rest) = splitWords before ++ splitWords rest :=
  splitWordsFrom_append_cons (Quoting.after_outside_iff.mpr h) hc [] rest

theorem flatten_splitWordsFrom (before current cs : List Char) :
    (splitWordsFrom (Quoting.outside.after before) current cs).flatten =
      current.reverse ++ withoutGaps before cs := by
  induction cs generalizing before current with
  | nil => simp [splitWordsFrom, withoutGaps]
  | cons c cs ih =>
      have hnext := ih (before ++ [c])
      rw [Quoting.after_append, Quoting.after_cons, Quoting.after_nil] at hnext
      rw [splitWordsFrom, withoutGaps]
      by_cases hdivider : (Quoting.outside.after before).isDivider c = true
      · rw [Quoting.next_of_isDivider hdivider] at hnext
        rw [if_pos hdivider, if_pos (Quoting.isDivider_after_iff.mp hdivider), List.flatten_append,
          flatten_finishWord, hnext, List.reverse_nil, List.nil_append]
      · rw [if_neg hdivider, if_neg (mt Quoting.isDivider_after_iff.mpr hdivider), hnext,
          List.reverse_cons, List.append_assoc, List.singleton_append]

/-- **The words of a text make up the text** without the blanks outside quotes. -/
theorem flatten_splitWords (cs : List Char) : (splitWords cs).flatten = withoutGaps [] cs :=
  flatten_splitWordsFrom [] [] cs

/-- **Splitting into words loses nothing but the blanks outside quotes**, whatever the text: no word
is empty, the words make up the text without those blanks, so that the text and its words have the
same characters but for blanks, and splitting the words joined by single spaces gives the same words
again. Every such blank divides the words before it from those after it. -/
theorem splitWords_lossless (cs : List Char) :
    [] ∉ splitWords cs ∧ (splitWords cs).flatten = withoutGaps [] cs ∧
      ((splitWords cs).flatten.filter fun c => !Text.isBlank c) =
        cs.filter (fun c => !Text.isBlank c) ∧
      splitWords ([' '].intercalate (splitWords cs)) = splitWords cs ∧
      ∀ before c rest, cs = before ++ c :: rest → Text.isBlank c = true →
        Text.QuotesClosed before → splitWords cs = splitWords before ++ splitWords rest := by
  have hjoinable := joinable_splitWords cs
  refine ⟨hjoinable.nil_notMem, flatten_splitWords cs, ?_, splitWords_intercalate hjoinable, ?_⟩
  · rw [flatten_splitWords, filter_withoutGaps]
  · rintro before c rest rfl hblank hclosed
    exact splitWords_append_cons hclosed hblank rest

/-- The theorem applies to a text whose last quote is not closed and in which a backslash comes
last. An escaped quote and a blank stand between quotes before that. -/
theorem splitWords_lossless_open :
    let cs := " a=\"b \\\" c\"\t d'e f\\".toList
    let words := ["a=\"b \\\" c\"".toList, "d'e f\\".toList]
    splitWords cs = words ∧ words.flatten = withoutGaps [] cs ∧
      splitWords ([' '].intercalate words) = words ∧
      splitWords cs = splitWords " a=\"b \\\" c\"".toList ++ splitWords " d'e f\\".toList := by
  intro cs words
  have hwords : splitWords cs = words := by decide
  obtain ⟨-, hflatten, -, hjoined, hdivides⟩ := splitWords_lossless cs
  rw [hwords] at hflatten hjoined
  exact ⟨hwords, hflatten, hjoined, hdivides _ '\t' _ rfl (by decide) (by decide)⟩

end PlaybookLint
