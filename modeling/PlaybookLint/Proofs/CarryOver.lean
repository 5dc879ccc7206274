import PlaybookLint.Proofs.LineMap

/-!
# Markers carried down

A marker that stands alone holds for the next line that is not blank. The map of a file is the least
one that contains what is marked and is closed under this rule, although it is made in a single pass
that reads the map it writes. The pass visits the lines from the top, and a line only ever says
something about lines below it; so whatever is going to be carried to a line has arrived when the
line is visited.

## Main definitions

* `BeginsWithMarker`, `IsNextLine` - the two questions about source lines, without their algorithms.
* `CommentTree.Standalone` - a line on which a marker stands alone.
* `CommentTree.Leads` - a stack of such lines that leads from one line to another.
* `CommentTree.IsLeastClosure` - the least entries that contain the marked ones and are closed.

## Main statements

* `SuppressionMap.has_foldl_carry` - what a pass over increasing lines does.
* `CommentTree.lineSkips_least` - the map of a file is the least closure.
-/

namespace PlaybookLint

/-! ### Source lines -/

/-- A text begins, after blanks, with the sign of a marker, and the text ends there or goes on with
a colon or a blank. -/
def BeginsWithMarker (text : Line) : Prop :=
  ∃ blanks rest, text = blanks ++ markerSign ++ rest ∧ (∀ c ∈ blanks, Text.isBlank c = true) ∧
    ∀ c ∈ rest.head?, c = ':' ∨ Text.isBlank c = true

theorem isMarkerText_iff (text : Line) : isMarkerText text = true ↔ BeginsWithMarker text := by
  constructor
  · intro h
    unfold isMarkerText at h
    cases hrest : Text.dropPrefix? markerSign (Text.trimStart text) with
    | none =>
        rw [hrest] at h
        exact nomatch h
    | some rest =>
        rw [hrest] at h
        refine ⟨text.takeWhile Text.isBlank, rest, ?_, fun c hc => ?_, fun c hc => ?_⟩
        · rw [List.append_assoc, ← Text.dropPrefix?_eq_some_iff.mp hrest, Text.trimStart,
            List.takeWhile_append_dropWhile]
        · exact List.all_eq_true.mp List.all_takeWhile c hc
        · obtain ⟨tail, rfl⟩ := List.head?_eq_some_iff.mp hc
          simpa using h
  · rintro ⟨blanks, rest, rfl, hblanks, hend⟩
    have htrim : Text.trimStart (blanks ++ markerSign ++ rest) = markerSign ++ rest := by
      rw [Text.trimStart, List.append_assoc, List.dropWhile_append_of_pos hblanks]
      rfl
    have hdrop := Text.dropPrefix?_eq_some_iff.mpr htrim
    unfold isMarkerText
    rw [hdrop]
    cases rest with
    | nil => rfl
    | cons c tail => simpa using hend c rfl

/-- The line `next` is the first one below `line` that is not blank. Lines count from one. -/
structure IsNextLine (lines : List Line) (line next : Nat) : Prop where
  below : line < next
  text : ∃ text, lines[next - 1]? = some text ∧ Text.isBlankText text = false
  blank : ∀ n, line < n → n < next → ∀ text, lines[n - 1]? = some text →
    Text.isBlankText text = true

theorem nextLine?_eq_some_iff {lines : List Line} {line next : Nat} :
    SuppressionMap.nextLine? lines line = some next ↔ IsNextLine lines line next := by
  rw [SuppressionMap.nextLine?, Option.map_eq_some_iff]
  constructor
  · rintro ⟨i, hfound, rfl⟩
    obtain ⟨hi, htext, hblank⟩ := List.findIdx?_eq_some_iff_getElem.mp hfound
    rw [List.length_drop] at hi
    rw [List.getElem_drop] at htext
    refine ⟨by omega, ⟨lines[line + i], ?_, by simpa using htext⟩, fun n hn hni text hget => ?_⟩
    · rw [List.getElem?_eq_some_iff]
      exact ⟨by omega, by congr 1; omega⟩
    · obtain ⟨hlt, rfl⟩ := List.getElem?_eq_some_iff.mp hget
      have hidx : line + (n - 1 - line) = n - 1 := by omega
      have hn := hblank (n - 1 - line) (by omega)
      rw [List.getElem_drop] at hn
      simpa only [hidx, Bool.not_eq_true, Bool.not_eq_false'] using hn
  · rintro ⟨hbelow, ⟨text, hget, htext⟩, hblank⟩
    obtain ⟨hlt, rfl⟩ := List.getElem?_eq_some_iff.mp hget
    have hidx : line + (next - 1 - line) = next - 1 := by omega
    refine ⟨next - 1 - line,
      List.findIdx?_eq_some_iff_getElem.mpr ⟨?_, ?_, fun j hj => ?_⟩, by omega⟩
    · rw [List.length_drop]
      omega
    · rw [List.getElem_drop]
      simpa only [hidx, Bool.not_eq_true'] using htext
    · have hbetween : Text.isBlankText lines[line + j] = true := by
        refine hblank (line + j + 1) (by omega) (by omega) _ ?_
        rw [Nat.add_sub_cancel, List.getElem?_eq_getElem]
      rw [List.getElem_drop, hbetween]
      exact Bool.false_ne_true

/-! ### One pass -/

namespace SuppressionMap

/-- The map with what is silenced on a line carried to the next one: that line gains the effects of
this one, and nothing else changes. -/
theorem has_carry {m : SuppressionMap} (h : m.WellFormed) (lines : List Line) (line n : Nat)
    (e : Effect) :
    EntryHas ((m.carry lines line).get? n) e ↔
      EntryHas (m.get? n) e ∨ nextLine? lines line = some n ∧ EntryHas (m.get? line) e := by
  unfold carry
  cases hnext : nextLine? lines line with
  | none => simp
  | some next =>
      cases hskips : m.get? line with
      | none => simp
      | some skips =>
          rw [has_merge h, Option.some_inj, entryHas_some, eq_comm (a := n)]

theorem WellFormed.carry {m : SuppressionMap} (h : m.WellFormed) (lines : List Line) (line : Nat) :
    (m.carry lines line).WellFormed := by
  unfold SuppressionMap.carry
  split
  · exact h.merge _ _
  · exact h

/-- Going from a line in `ks` to its next line, and so on, leads to another line. -/
inductive Via (lines : List Line) (ks : List Nat) : Nat → Nat → Prop where
  | refl (n : Nat) : Via lines ks n n
  | step {k next n : Nat} : k ∈ ks → nextLine? lines k = some next → Via lines ks next n →
      Via lines ks k n

variable {lines : List Line} {ks : List Nat}

theorem Via.mono {js : List Nat} (hsub : ∀ k ∈ ks, k ∈ js) {k n : Nat} (h : Via lines ks k n) :
    Via lines js k n := by
  induction h with
  | refl n => exact .refl n
  | step hk hnext _ ih => exact .step (hsub _ hk) hnext ih

/-- A path that may use one line more, which is above all the others, can do so in its first step
only. -/
theorem via_cons {l k n : Nat} (hl : ∀ k ∈ ks, l < k) :
    Via lines (l :: ks) k n ↔
      Via lines ks k n ∨ k = l ∧ ∃ next, nextLine? lines l = some next ∧ Via lines ks next n := by
  constructor
  · intro h
    induction h with
    | refl n => exact .inl (.refl n)
    | @step k next n hk hnext _ ih =>
        have hbelow : k < next := (nextLine?_eq_some_iff.mp hnext).below
        have hrest : Via lines ks next n := by
          obtain hvia | ⟨hnextEq, -⟩ := ih
          · exact hvia
          · -- the path has passed `l` already
            obtain rfl | hmem := List.mem_cons.mp hk
            · omega
            · have := hl k hmem
              omega
        obtain rfl | hmem := List.mem_cons.mp hk
        · exact .inr ⟨rfl, next, hnext, hrest⟩
        · exact .inl (.step hmem hnext hrest)
  · rintro (hvia | ⟨rfl, next, hnext, hvia⟩)
    · exact hvia.mono fun k hk => List.mem_cons_of_mem l hk
    · exact .step List.mem_cons_self hnext (hvia.mono fun k hk => List.mem_cons_of_mem _ hk)

/-- **One pass is enough.**  After a pass over increasing lines, a line has the effects of all lines
from which a path of visited lines leads to it. -/
theorem has_foldl_carry {m : SuppressionMap} (h : m.WellFormed) (hks : ks.Pairwise (· < ·))
    (n : Nat) (e : Effect) :
    EntryHas ((ks.foldl (carry lines) m).get? n) e ↔
      ∃ k, Via lines ks k n ∧ EntryHas (m.get? k) e := by
  induction ks generalizing m with
  | nil =>
      refine ⟨fun hn => ⟨n, .refl n, hn⟩, ?_⟩
      rintro ⟨k, hvia, hk⟩
      cases hvia with
      | refl => exact hk
      | step hmem => exact nomatch hmem
  | cons l ks ih =>
      -- what `l` hands on is in the map before any line below `l` is visited
      obtain ⟨hl, hks⟩ := List.pairwise_cons.mp hks
      rw [List.foldl_cons, ih (h.carry lines l) hks]
      constructor
      · rintro ⟨k, hvia, hk⟩
        obtain hk | ⟨hnext, hk⟩ := (has_carry h lines l k e).mp hk
        · exact ⟨k, (via_cons hl).mpr (.inl hvia), hk⟩
        · exact ⟨l, (via_cons hl).mpr (.inr ⟨rfl, k, hnext, hvia⟩), hk⟩
      · rintro ⟨k, hvia, hk⟩
        obtain hvia | ⟨rfl, next, hnext, hvia⟩ := (via_cons hl).mp hvia
        · exact ⟨k, hvia, (has_carry h lines l k e).mpr (.inl hk)⟩
        · exact ⟨next, hvia, (has_carry h lines k next e).mpr (.inr ⟨hnext, hk⟩)⟩

theorem wellFormed_foldl_carry {m : SuppressionMap} (h : m.WellFormed) :
    (ks.foldl (carry lines) m).WellFormed := by
  induction ks generalizing m with
  | nil => exact h
  | cons l ks ih => exact ih (h.carry lines l)

end SuppressionMap

/-! ### The map of a file -/

namespace CommentTree

/-- A marker stands alone on the line: there is a marker on it, and the source line begins with
one. -/
def Standalone (tree : CommentTree) (line : Nat) : Prop :=
  (tree.marked line).isSome = true ∧
    ∃ text, tree.lines[line - 1]? = some text ∧ BeginsWithMarker text

/-- A stack of markers that stand alone leads from a line to another one: each of them is followed
by the next, perhaps after blank lines, and the last one by the line that the stack leads to. -/
inductive Leads (tree : CommentTree) : Nat → Nat → Prop where
  | refl (n : Nat) : Leads tree n n
  | step {k next n : Nat} : tree.Standalone k → IsNextLine tree.lines k next →
      Leads tree next n → Leads tree k n

/-- What is silenced where a marker stands alone is silenced on the next line too. -/
def Closed (tree : CommentTree) (entries : Nat → Option LineSkips) : Prop :=
  ∀ line next, tree.Standalone line → IsNextLine tree.lines line next →
    EntryLe (entries line) (entries next)

/-- The least entries that contain the marked ones and are closed. -/
structure IsLeastClosure (tree : CommentTree) (entries : Nat → Option LineSkips) : Prop where
  contains : ∀ line, EntryLe (tree.marked line) (entries line)
  closed : tree.Closed entries
  least : ∀ other : Nat → Option LineSkips, (∀ line, EntryLe (tree.marked line) (other line)) →
    tree.Closed other → ∀ line, EntryLe (entries line) (other line)

/-- The lines that the pass visits. -/
def standaloneLines (tree : CommentTree) : List Nat :=
  ((SuppressionMap.ofComments tree.comments).lines.map Prod.fst).filter
    (SuppressionMap.isStandalone tree.lines)

theorem pairwise_standaloneLines (tree : CommentTree) :
    tree.standaloneLines.Pairwise (· < ·) := by
  have hincreasing := (SuppressionMap.wellFormed_ofComments tree.comments).increasing
  exact (List.pairwise_map.mpr hincreasing).filter _

theorem mem_standaloneLines {tree : CommentTree} {line : Nat} :
    line ∈ tree.standaloneLines ↔ tree.Standalone line := by
  have hkey : line ∈ (SuppressionMap.ofComments tree.comments).lines.map Prod.fst ↔
      (tree.marked line).isSome = true := by
    rw [← get?_ofComments, SuppressionMap.get?, List.lookup_isSome_iff, List.mem_map]
    exact exists_congr fun e => and_congr_right fun _ => by rw [beq_iff_eq, eq_comm]
  rw [standaloneLines, List.mem_filter, hkey, Standalone, SuppressionMap.isStandalone,
    Option.any_eq_true]
  simp only [isMarkerText_iff]

theorem leads_iff_via {tree : CommentTree} {k n : Nat} :
    tree.Leads k n ↔ SuppressionMap.Via tree.lines tree.standaloneLines k n := by
  constructor
  · intro h
    induction h with
    | refl n => exact .refl n
    | step hk hnext _ ih =>
        exact .step (mem_standaloneLines.mpr hk) (nextLine?_eq_some_iff.mpr hnext) ih
  · intro h
    induction h with
    | refl n => exact .refl n
    | step hk hnext _ ih =>
        exact .step (mem_standaloneLines.mp hk) (nextLine?_eq_some_iff.mp hnext) ih

theorem Leads.snoc {tree : CommentTree} {k line next : Nat} (h : tree.Leads k line)
    (hline : tree.Standalone line) (hnext : IsNextLine tree.lines line next) :
    tree.Leads k next := by
  induction h with
  | refl n => exact .step hline hnext (.refl next)
  | step hk hstep _ ih => exact .step hk hstep (ih hline hnext)

/-- **What the map of a file says**: a line has the effects of all markers from which a stack leads
to it. -/
theorem has_lineSkips (tree : CommentTree) (n : Nat) (e : Effect) :
    EntryHas (tree.lineSkips.get? n) e ↔
      ∃ k, tree.Leads k n ∧ EntryHas (tree.marked k) e := by
  have hpass : EntryHas (tree.lineSkips.get? n) e ↔ _ :=
    SuppressionMap.has_foldl_carry (SuppressionMap.wellFormed_ofComments tree.comments)
      tree.pairwise_standaloneLines n e
  simp only [← leads_iff_via, get?_ofComments] at hpass
  exact hpass

theorem wellFormed_lineSkips (tree : CommentTree) : tree.lineSkips.WellFormed :=
  SuppressionMap.wellFormed_foldl_carry (SuppressionMap.wellFormed_ofComments tree.comments)

theorem isLeastClosure_lineSkips (tree : CommentTree) :
    tree.IsLeastClosure tree.lineSkips.get? where
  contains line :=
    entryLe_iff.mpr fun e he => (tree.has_lineSkips line e).mpr ⟨line, .refl line, he⟩
  closed line next hline hnext := by
    refine entryLe_iff.mpr fun e he => ?_
    obtain ⟨k, hleads, hk⟩ := (tree.has_lineSkips line e).mp he
    exact (tree.has_lineSkips next e).mpr ⟨k, hleads.snoc hline hnext, hk⟩
  least other hcontains hclosed n := by
    refine entryLe_iff.mpr fun e he => ?_
    obtain ⟨k, hleads, hk⟩ := (tree.has_lineSkips n e).mp he
    have hother := entryLe_iff.mp (hcontains k) e hk
    -- the effect goes down the stack, as `other` is closed
    clear he hk
    induction hleads with
    | refl n => exact hother
    | step hline hnext _ ih => exact ih (entryLe_iff.mp (hclosed _ _ hline hnext) e hother)

/-- A line that no marker is carried to has what is marked on it. -/
theorem get?_lineSkips_of_not_next {tree : CommentTree} {n : Nat}
    (h : ∀ k, tree.Standalone k → ¬ IsNextLine tree.lines k n) :
    tree.lineSkips.get? n = tree.marked n := by
  have hleads : ∀ k, tree.Leads k n → k = n := by
    intro k hk
    induction hk with
    | refl n => rfl
    | step hline hnext _ ih =>
        obtain rfl := ih h
        exact (h _ hline hnext).elim
  have hmarked := (SuppressionMap.wellFormed_ofComments tree.comments).sets_get? n
  rw [get?_ofComments] at hmarked
  refine entry_ext (tree.wellFormed_lineSkips.sets_get? n) hmarked fun e => ?_
  rw [has_lineSkips]
  constructor
  · rintro ⟨k, hk, hhas⟩
    rwa [hleads k hk] at hhas
  · exact fun hhas => ⟨n, .refl n, hhas⟩

theorem lineSkips_eq_empty {tree : CommentTree} (h : ∀ c ∈ tree.comments, c.isMarker = false) :
    tree.lineSkips = .empty := by
  have hmarkers : tree.comments.filter Comment.isMarker = [] := by
    rw [List.filter_eq_nil_iff]
    exact fun c hc => by rw [h c hc]; exact Bool.false_ne_true
  rw [lineSkips, SuppressionMap.ofComments, hmarkers]
  rfl

/-- **The map of a file is the least closure of its markers.**  It contains what is marked on every
line; where a marker stands alone, what is silenced is silenced on the next line that is not blank;
and it is included in everything with these two properties. So a line has the effects of exactly the
markers from which a stack leads to it. A marker that does not stand alone leads nowhere else, and
neither does one without such a line below it; a line below no marker that stands alone has what is
marked on it; and without markers there is nothing in the map. -/
theorem lineSkips_least (tree : CommentTree) :
    tree.IsLeastClosure tree.lineSkips.get? ∧
      (∀ n e, EntryHas (tree.lineSkips.get? n) e ↔
        ∃ k, tree.Leads k n ∧ EntryHas (tree.marked k) e) ∧
      (∀ k n, tree.Leads k n → k ≠ n →
        tree.Standalone k ∧ ∃ next, IsNextLine tree.lines k next) ∧
      (∀ n, (∀ k, tree.Standalone k → ¬ IsNextLine tree.lines k n) →
        tree.lineSkips.get? n = tree.marked n) ∧
      ((∀ c ∈ tree.comments, c.isMarker = false) → tree.lineSkips = .empty) := by
  refine ⟨tree.isLeastClosure_lineSkips, tree.has_lineSkips, fun k n hleads hne => ?_,
    fun n => get?_lineSkips_of_not_next, lineSkips_eq_empty⟩
  cases hleads with
  | refl => exact absurd rfl hne
  | step hline hnext _ => exact ⟨hline, _, hnext⟩

end CommentTree

end PlaybookLint
