import PlaybookLint.Proofs.Home

/-!
# Bodies of block scalars

A comment cannot start in the body of a block scalar. The body is found from the line that the
scalar is reported at, which is its first line; but the text of that line is asked whether it could
be a header, and the first line of a body can look like one: a command that ends in a pipe does. So
a body is masked exactly if its first line looks like no header, and then scanning loses the
comments on the lines of the body and no other ones.

## Main definitions

* `IsBlockBody` - some lines make up a body, given the lines below it.
* `nonBlankNumbers` - the numbers of the lines that are not blank.

## Main statements

* `bodyLines_append` - the lines of a body are found up to its end.
* `blockBody_eq_iff` - a body is found exactly if its first line looks like no header.
* `scanComments_cover` - masking a block scalar leaves out the comments on the masked lines.
* `block_masked_iff` - the two together.
-/

namespace PlaybookLint

open Yaml (Event)

/-- The lines `first :: rest` are the body of a block scalar, the lines below it being `after`. -/
structure IsBlockBody (first : Line) (rest after : List Line) : Prop where
  first_nonblank : Text.isBlankText first = false
  /-- The other lines are indented as much as the first one, if they are not blank. -/
  rest_indented : ∀ line ∈ rest, Text.isBlankText line = false → indentOf first ≤ indentOf line
  /-- The next line that is not blank, if there is one, is indented less. -/
  ends : ∀ next, after.find? (fun line => !Text.isBlankText line) = some next →
    indentOf next < indentOf first

/-- The numbers of the lines that are not blank, the first line having number `n`. -/
def nonBlankNumbers : (n : Nat) → List Line → List Nat
  | _, [] => []
  | n, line :: lines =>
    if Text.isBlankText line then nonBlankNumbers (n + 1) lines
    else n :: nonBlankNumbers (n + 1) lines

theorem mem_nonBlankNumbers {n k : Nat} {lines : List Line} :
    k ∈ nonBlankNumbers n lines ↔
      ∃ i line, lines[i]? = some line ∧ k = n + i ∧ Text.isBlankText line = false := by
  induction lines generalizing n with
  | nil => simp [nonBlankNumbers]
  | cons line lines ih =>
      have hcons : (∃ i text, (line :: lines)[i]? = some text ∧ k = n + i ∧
            Text.isBlankText text = false) ↔
          (k = n ∧ Text.isBlankText line = false) ∨
            ∃ i text, lines[i]? = some text ∧ k = n + 1 + i ∧ Text.isBlankText text = false := by
        constructor
        · rintro ⟨i, text, hat, hk, hblank⟩
          cases i with
          | zero =>
              cases hat
              exact .inl ⟨hk, hblank⟩
          | succ i => exact .inr ⟨i, text, hat, by omega, hblank⟩
        · rintro (⟨hk, hblank⟩ | ⟨i, text, hat, hk, hblank⟩)
          · exact ⟨0, line, rfl, hk, hblank⟩
          · exact ⟨i + 1, text, hat, by omega, hblank⟩
      rw [hcons, ← ih, nonBlankNumbers]
      cases Text.isBlankText line <;> simp

/-! ### The lines of a body -/

/-- No line belongs to a body any more below the line that ends it. -/
theorem bodyLines_after {first : Line} {rest after : List Line} (h : IsBlockBody first rest after)
    (n : Nat) : bodyLines (fun i => decide (indentOf first ≤ i)) true n after = [] := by
  have hends := h.ends
  clear h
  induction after generalizing n with
  | nil => rfl
  | cons line after ih =>
      rw [bodyLines]
      by_cases hblank : Text.isBlankText line = true
      · rw [if_pos hblank]
        refine ih (n + 1) fun next hnext => hends next ?_
        rw [List.find?_cons, hblank]
        exact hnext
      · have hless : indentOf line < indentOf first :=
          hends line (List.find?_cons_of_pos (by simp [hblank]))
        rw [if_neg hblank, if_pos (by simp [hless])]

/-- **The lines of a body are found up to its end.** -/
theorem bodyLines_append {first : Line} {rest after : List Line} (h : IsBlockBody first rest after)
    (n : Nat) :
    bodyLines (fun i => decide (indentOf first ≤ i)) true n (rest ++ after) =
      nonBlankNumbers n rest := by
  have hrest := h.rest_indented
  have hafter := bodyLines_after h
  clear h
  induction rest generalizing n with
  | nil => exact hafter n
  | cons line rest ih =>
      obtain ⟨hline, hlater⟩ := List.forall_mem_cons.mp hrest
      rw [List.cons_append, bodyLines, nonBlankNumbers]
      by_cases hblank : Text.isBlankText line = true
      · rw [if_pos hblank, if_pos hblank, ih (n + 1) hlater]
      · have hindent : indentOf first ≤ indentOf line := hline (Bool.eq_false_iff.mpr hblank)
        rw [if_neg hblank, if_neg hblank, if_neg (by simp [hindent]), if_pos rfl,
          ih (n + 1) hlater]

/-- All lines that a search finds have the number of the first line, or a later one. -/
theorem le_of_mem_bodyLines {required : Nat → Bool} {found : Bool} {n k : Nat} {lines : List Line}
    (h : k ∈ bodyLines required found n lines) : n ≤ k := by
  induction lines generalizing required found n with
  | nil => exact nomatch h
  | cons line lines ih =>
      rw [bodyLines] at h
      dsimp only at h
      split at h
      · have := ih h
        omega
      · split at h
        · exact nomatch h
        · split at h
          all_goals
            rcases List.mem_cons.mp h with rfl | h
            · exact Nat.le_refl k
            · have := ih h
              omega

section Found

variable {rest after : List Line} {first : Line}

/-- **A body is found exactly if its first line looks like no header.** -/
theorem blockBody_eq_iff (before : List Line) (h : IsBlockBody first rest after) :
    blockBody (before ++ first :: (rest ++ after)) (before.length + 1) =
        nonBlankNumbers (before.length + 1) (first :: rest) ↔
      endsWithHeader first = false := by
  have hat : (before ++ first :: (rest ++ after))[before.length + 1 - 1]? = some first := by simp
  have hmem : before.length + 1 ∈ nonBlankNumbers (before.length + 1) (first :: rest) := by
    simp [nonBlankNumbers, h.first_nonblank]
  rw [blockBody, hat]
  cases hheader : endsWithHeader first with
  | true =>
      -- the search starts below the first line, which is therefore not found
      rw [Option.filter_some_pos hheader]
      refine iff_of_false (fun heq => ?_) Bool.true_eq_false.mp
      rw [← heq] at hmem
      have := le_of_mem_bodyLines hmem
      omega
  | false =>
      rw [Option.filter_some_neg (by simp [hheader])]
      refine iff_of_true ?_ rfl
      have hdrop : (before ++ first :: (rest ++ after)).drop (before.length + 1 - 1) =
          first :: (rest ++ after) := by simp
      dsimp only
      rw [hdrop, bodyLines, nonBlankNumbers, h.first_nonblank]
      simp only [Bool.false_eq_true, if_false, Bool.not_true]
      rw [bodyLines_append h]

end Found

/-! ### Scanning a masked text -/

/-- Masking more lines leaves out the comments on them. -/
theorem scanLines_append (covered : Nat → Bool) (more blockLines : List Nat) (n index : Nat)
    (lines : List Line) :
    scanLines covered (more ++ blockLines) n index lines =
      (scanLines covered blockLines n index lines).filter fun c => !more.contains c.line := by
  induction lines generalizing n index with
  | nil => rfl
  | cons line lines ih =>
      rw [scanLines, scanLines, ih, List.contains_append]
      cases hblock : blockLines.contains n with
      | true => simp
      | false =>
          have hline : ∀ c ∈ (commentOn? covered n 0 index none line).toList, c.line = n :=
            fun c hc => (commentOn?_eq_some_iff.mp (Option.mem_toList.mp hc)).line_eq
          simp only [Bool.or_false, Bool.false_eq_true, if_false, List.filter_append]
          cases hmore : more.contains n with
          | true =>
              have hnone : ((commentOn? covered n 0 index none line).toList.filter
                  fun c => !more.contains c.line) = [] := by
                refine List.filter_eq_nil_iff.mpr fun c hc => ?_
                rw [hline c hc, hmore]
                decide
              rw [if_pos rfl, hnone, List.nil_append]
          | false =>
              have hall : ((commentOn? covered n 0 index none line).toList.filter
                  fun c => !more.contains c.line) =
                    (commentOn? covered n 0 index none line).toList := by
                refine List.filter_eq_self.mpr fun c hc => ?_
                rw [hline c hc, hmore]
                decide
              rw [if_neg Bool.false_ne_true, hall]

/-- The event is a literal or folded scalar. -/
def Yaml.Event.IsBlockScalar (event : Event) : Prop :=
  ∃ text style anchor, event.kind = .scalar text style anchor ∧ (style = .literal ∨ style = .folded)

namespace Mask

variable {event : Event}

theorem blockAt_of_isBlockScalar (h : event.IsBlockScalar) (lines : List Line) :
    blockAt lines event = blockBody lines event.mark.line := by
  obtain ⟨text, style, anchor, hkind, rfl | rfl⟩ := h <;> rw [blockAt, hkind]

theorem quotedAt?_of_isBlockScalar (h : event.IsBlockScalar) (source : List Char) :
    quotedAt? source event = none := by
  obtain ⟨text, style, anchor, hkind, rfl | rfl⟩ := h <;> rw [quotedAt?, hkind]

/-- **Masking a block scalar** leaves out the comments on the lines of its body. -/
theorem scanComments_cover (h : event.IsBlockScalar) (source : List Char)
    (lines scanned : List Line) (mask : Mask) :
    scanComments scanned (mask.cover source lines event) =
      (scanComments scanned mask).filter fun c =>
        !(blockBody lines event.mark.line).contains c.line := by
  rw [scanComments, cover, quotedAt?_of_isBlockScalar h, blockAt_of_isBlockScalar h]
  exact scanLines_append ..

end Mask

/-! ### Bodies and their comments -/

section Masked

variable {before rest after : List Line} {first : Line} {c : Comment}

/-- A comment stands on a line of the body that is not blank exactly if it stands between the first
line of the body and the last one. -/
theorem mem_nonBlankNumbers_iff_of_mem {covered : Nat → Bool} {blockLines : List Nat}
    (h : c ∈ scanLines covered blockLines 1 0 (before ++ first :: (rest ++ after))) :
    c.line ∈ nonBlankNumbers (before.length + 1) (first :: rest) ↔
      before.length + 1 ≤ c.line ∧ c.line ≤ before.length + 1 + rest.length := by
  obtain ⟨i, line, hat, -, hcomment⟩ := mem_scanLines_iff.mp h
  have hline := hcomment.line_eq
  have hblank := hcomment.isBlankText_eq_false
  rw [mem_nonBlankNumbers]
  constructor
  · rintro ⟨j, text, hin, hj, -⟩
    have hlt : j < (first :: rest).length := (List.getElem?_eq_some_iff.mp hin).1
    rw [List.length_cons] at hlt
    omega
  · rintro ⟨hle, hge⟩
    refine ⟨i - before.length, line, ?_, by omega, hblank⟩
    have hlines : before ++ first :: (rest ++ after) = before ++ ((first :: rest) ++ after) := by
      simp
    rw [hlines, List.getElem?_append_right (by omega),
      List.getElem?_append_left (by rw [List.length_cons]; omega)] at hat
    exact hat

/-- **What masking a block scalar comes to.**  Take a literal or folded scalar that is reported at
the first line of its body, any texts standing on the lines of the body. The numbers of the lines
of the body are what is masked, the blank ones left out, exactly if the first line does not look
like a header. Then the comments that are lost to the mask are those on the lines of the body, and
those above and below are found as before. -/
theorem block_masked_iff (before : List Line) (hbody : IsBlockBody first rest after) {event : Event}
    (hevent : event.IsBlockScalar) (hline : event.mark.line = before.length + 1) :
    let lines := before ++ first :: (rest ++ after)
    (Mask.blockAt lines event = nonBlankNumbers event.mark.line (first :: rest) ↔
      endsWithHeader first = false) ∧
    (endsWithHeader first = false → ∀ (source : List Char) (mask : Mask),
      scanComments lines (mask.cover source lines event) =
        (scanComments lines mask).filter fun c =>
          c.line < event.mark.line ∨ event.mark.line + rest.length < c.line) := by
  intro lines
  have hfound := blockBody_eq_iff before hbody
  rw [Mask.blockAt_of_isBlockScalar hevent, hline]
  refine ⟨hfound, fun hheader source mask => ?_⟩
  rw [Mask.scanComments_cover hevent, hline, hfound.mpr hheader]
  refine List.filter_congr fun c hc => ?_
  have hin := mem_nonBlankNumbers_iff_of_mem hc
  rw [Bool.eq_iff_iff, Bool.not_eq_true', ← Bool.not_eq_true, List.contains_iff_mem, hin,
    decide_eq_true_eq]
  omega

/-- The theorem applies to a script of two lines, with a `#` in each of them and a comment below:
the scalar is reported at line 2, and the comment on line 4 is the only one. -/
theorem block_masked_script :
    let lines := ["- shell: |".toList] ++
      "    echo # one".toList :: (["    echo # two".toList] ++ ["  # three".toList])
    let event : Event := ⟨.scalar "echo # one\necho # two\n" .literal 0, ⟨15, 2, 4⟩⟩
    Mask.blockAt lines event = [2, 3] ∧
      (scanComments lines (Mask.empty.cover [] lines event)).map Comment.line = [4] := by
  intro lines event
  have hbody :
      IsBlockBody "    echo # one".toList ["    echo # two".toList] ["  # three".toList] := by
    refine ⟨by decide, by decide, fun next hnext => ?_⟩
    cases hnext
    decide
  have hevent : event.IsBlockScalar := ⟨_, _, _, rfl, .inl rfl⟩
  obtain ⟨hmasked, hscan⟩ := block_masked_iff ["- shell: |".toList] hbody hevent rfl
  refine ⟨hmasked.mpr (by decide), ?_⟩
  rw [hscan (by decide)]
  decide +kernel

/-- The first line of a body can end in a pipe, which looks like a header: of a script that sends
one command's output to another, no line is masked, and what looks like a marker in it is taken for
one. -/
theorem comment_in_piped_body :
    let text := "- shell: |\n    cat a |\n    grep b  # noqa: fqcn\n"
    let events := (Yaml.Event.read text).toOption.getD []
    let first := "    cat a |".toList
    let rest := ["    grep b  # noqa: fqcn".toList]
    linesOf text = ["- shell: |".toList] ++ first :: (rest ++ [[]]) ∧
      IsBlockBody first rest [[]] ∧
      (∃ event ∈ events, event.IsBlockScalar ∧ event.mark.line = 2 ∧
        nonBlankNumbers 2 (first :: rest) = [2, 3] ∧ Mask.blockAt (linesOf text) event = []) ∧
      (CommentTree.scanned text.toList events).map (fun c => (c.line, c.text)) =
        [(3, "# noqa: fqcn")] := by
  intro text events first rest
  refine ⟨by decide, ⟨by decide, by decide, fun next hnext => nomatch hnext⟩, ?_, ?_⟩
  · have hevent : ∃ event ∈ events,
        event.kind = .scalar "cat a |\ngrep b  # noqa: fqcn\n" .literal 0 ∧
        event.mark.line = 2 ∧ Mask.blockAt (linesOf text) event = [] := by decide +kernel
    obtain ⟨event, hmem, hkind, hline, hnone⟩ := hevent
    exact ⟨event, hmem, ⟨_, _, _, hkind, .inl rfl⟩, hline, by decide, hnone⟩
  · decide +kernel

end Masked

end PlaybookLint
