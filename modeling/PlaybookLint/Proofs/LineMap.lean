import PlaybookLint.Suppression

/-!
# What a line map says

A line map is looked at through its effects: that a line has an entry, that everything is silenced
on it, that an identifier is. Adding to a map adds effects and takes none away, and an entry is
determined by its effects.

## Main definitions

* `Effect`, `EntryHas` - what an entry may say, and whether it does.
* `EntryLe` - whatever the one entry silences, the other one silences.
* `SuppressionMap.WellFormed` - lines are increasing, and identifiers are sets.
* `CommentTree.marked` - what the markers on a line say about it.

## Main statements

* `entryLe_iff`, `entry_ext` - entries are compared by their effects.
* `SuppressionMap.has_merge` - the effects of an addition.
* `SuppressionMap.get?_ofComments` - before anything is carried, a line has what is marked on it.
-/

namespace PlaybookLint

/-! ### Effects -/

/-- What an entry of a line map may say. -/
inductive Effect where
  /-- A marker has a say on the line. -/
  | entry
  /-- Everything is silenced on the line. -/
  | everything
  /-- An identifier is silenced on the line. -/
  | name (text : String)

namespace LineSkips

/-- Whether an entry has an effect. -/
def Has (s : LineSkips) : Effect → Prop
  | .entry => True
  | .everything => s.all = true
  | .name text => text ∈ s.rules

theorem has_merge (s t : LineSkips) (e : Effect) : (s.merge t).Has e ↔ s.Has e ∨ t.Has e := by
  cases e with
  | entry => exact (or_self_iff).symm
  | everything => exact Bool.or_eq_true_iff
  | name text => exact NameSet.mem_insertAll.trans or_comm

theorem has_empty_merge (t : LineSkips) (e : Effect) : (empty.merge t).Has e ↔ t.Has e := by
  rw [has_merge]
  refine ⟨fun h => h.elim (fun hempty => ?_) id, .inr⟩
  cases e with
  | entry => trivial
  | everything => exact nomatch hempty
  | name text => exact nomatch hempty

/-- Whatever is silenced by `s` is silenced by `t`. -/
def Included (s t : LineSkips) : Prop :=
  (s.all = true → t.all = true) ∧ ∀ r ∈ s.rules, r ∈ t.rules

end LineSkips

/-- Whether a line with this entry, if any, has an effect. -/
def EntryHas (entry : Option LineSkips) (e : Effect) : Prop :=
  ∃ s, entry = some s ∧ s.Has e

/-- The one entry is included in the other one, which is there if the first one is. -/
def EntryLe (a b : Option LineSkips) : Prop :=
  ∀ s, a = some s → ∃ t, b = some t ∧ s.Included t

@[simp] theorem entryHas_some (s : LineSkips) (e : Effect) : EntryHas (some s) e ↔ s.Has e := by
  refine ⟨?_, fun h => ⟨s, rfl, h⟩⟩
  rintro ⟨t, ht, h⟩
  cases ht
  exact h

@[simp] theorem entryHas_none (e : Effect) : ¬ EntryHas none e := by
  rintro ⟨s, hs, -⟩
  exact nomatch hs

theorem isSome_iff_has_entry (a : Option LineSkips) : a.isSome = true ↔ EntryHas a .entry := by
  cases a with
  | none => simp
  | some s => simp [LineSkips.Has]

/-- Entries are included in each other as their effects are. -/
theorem entryLe_iff {a b : Option LineSkips} :
    EntryLe a b ↔ ∀ e, EntryHas a e → EntryHas b e := by
  constructor
  · rintro h e ⟨s, hs, he⟩
    obtain ⟨t, ht, hall, hrules⟩ := h s hs
    refine ⟨t, ht, ?_⟩
    cases e with
    | entry => trivial
    | everything => exact hall he
    | name text => exact hrules text he
  · intro h s hs
    obtain ⟨t, ht, -⟩ := h .entry ⟨s, hs, trivial⟩
    have hhas : ∀ e, s.Has e → t.Has e := by
      intro e he
      have hb := h e ⟨s, hs, he⟩
      rwa [ht, entryHas_some] at hb
    exact ⟨t, ht, hhas .everything, fun r hr => hhas (.name r) hr⟩

/-- An entry is determined by its effects. -/
theorem entry_ext {a b : Option LineSkips} (ha : ∀ s ∈ a, s.rules.Pairwise (· < ·))
    (hb : ∀ s ∈ b, s.rules.Pairwise (· < ·)) (h : ∀ e, EntryHas a e ↔ EntryHas b e) : a = b := by
  have hentry := h .entry
  rw [← isSome_iff_has_entry, ← isSome_iff_has_entry] at hentry
  cases a with
  | none =>
      cases b with
      | none => rfl
      | some t => exact nomatch hentry.mpr rfl
  | some s =>
      cases b with
      | none => exact nomatch hentry.mp rfl
      | some t =>
          simp only [entryHas_some] at h
          obtain ⟨all, rules⟩ := s
          obtain ⟨all', rules'⟩ := t
          have hall : all = all' := Bool.eq_iff_iff.mpr (h .everything)
          have hrules : rules = rules' :=
            NameSet.eq_of_mem_iff (ha _ rfl) (hb _ rfl) fun r => h (.name r)
          rw [hall, hrules]

/-! ### Additions -/

namespace SuppressionMap

/-- The lines of the map are increasing, and the identifiers on each of them are a set. -/
structure WellFormed (m : SuppressionMap) : Prop where
  increasing : m.lines.Pairwise fun a b => a.1 < b.1
  sets : ∀ e ∈ m.lines, e.2.rules.Pairwise (· < ·)

theorem wellFormed_empty : empty.WellFormed :=
  ⟨.nil, nofun⟩

theorem WellFormed.sets_get? {m : SuppressionMap} (h : m.WellFormed) (line : Nat) :
    ∀ s ∈ m.get? line, s.rules.Pairwise (· < ·) := by
  intro s hs
  obtain ⟨before, after, hsplit, -⟩ := List.lookup_eq_some_iff.mp hs
  refine h.sets (line, s) ?_
  rw [hsplit]
  exact List.mem_append_right before List.mem_cons_self

theorem mem_mergeInto {line : Nat} {skips : LineSkips} {lines : List (Nat × LineSkips)} :
    ∀ e ∈ mergeInto line skips lines, e.1 = line ∨ e ∈ lines := by
  fun_induction mergeInto line skips lines <;> grind

/-- A line above all others comes before all of them. -/
theorem lt_of_mem_cons {line other : Nat} {present : LineSkips} {lines : List (Nat × LineSkips)}
    (hlt : line < other)
    (h : ((other, present) :: lines).Pairwise fun a b => a.1 < b.1) :
    ∀ e ∈ (other, present) :: lines, line < e.1 :=
  List.forall_mem_cons.mpr
    ⟨hlt, fun e he => Nat.lt_trans hlt ((List.pairwise_cons.mp h).1 e he)⟩

theorem increasing_mergeInto (line : Nat) (skips : LineSkips) {lines : List (Nat × LineSkips)}
    (h : lines.Pairwise fun a b => a.1 < b.1) :
    (mergeInto line skips lines).Pairwise fun a b => a.1 < b.1 := by
  fun_induction mergeInto line skips lines with
  | case1 => exact List.pairwise_singleton _ _
  | case2 other present lines hlt => exact List.pairwise_cons.mpr ⟨lt_of_mem_cons hlt h, h⟩
  | case3 present lines hnot => exact List.pairwise_cons.mpr (List.pairwise_cons.mp h)
  | case4 other present lines hnot hne ih =>
      obtain ⟨hother, hlines⟩ := List.pairwise_cons.mp h
      refine List.pairwise_cons.mpr ⟨fun e he => ?_, ih hlines⟩
      obtain hline | hmem := mem_mergeInto e he
      · rw [hline]
        omega
      · exact hother e hmem

theorem sets_mergeInto (line : Nat) (skips : LineSkips) {lines : List (Nat × LineSkips)}
    (h : ∀ e ∈ lines, e.2.rules.Pairwise (· < ·)) :
    ∀ e ∈ mergeInto line skips lines, e.2.rules.Pairwise (· < ·) := by
  have hnew : (LineSkips.empty.merge skips).rules.Pairwise (· < ·) :=
    NameSet.pairwise_insertAll skips.rules .nil
  fun_induction mergeInto line skips lines with
  | case1 => exact List.forall_mem_cons.mpr ⟨hnew, nofun⟩
  | case2 other present lines hlt => exact List.forall_mem_cons.mpr ⟨hnew, h⟩
  | case3 present lines hnot =>
      obtain ⟨hpresent, hlines⟩ := List.forall_mem_cons.mp h
      exact List.forall_mem_cons.mpr ⟨NameSet.pairwise_insertAll skips.rules hpresent, hlines⟩
  | case4 other present lines hnot hne ih =>
      obtain ⟨hpresent, hlines⟩ := List.forall_mem_cons.mp h
      exact List.forall_mem_cons.mpr ⟨hpresent, ih hlines⟩

theorem WellFormed.merge {m : SuppressionMap} (h : m.WellFormed) (line : Nat) (skips : LineSkips) :
    (m.merge line skips).WellFormed :=
  ⟨increasing_mergeInto line skips h.increasing, sets_mergeInto line skips h.sets⟩

theorem lookup_cons_eq_ite (n k : Nat) (skips : LineSkips) (lines : List (Nat × LineSkips)) :
    ((k, skips) :: lines).lookup n = if n = k then some skips else lines.lookup n := by
  rw [List.lookup_cons]
  by_cases hn : n = k
  · rw [if_pos hn, beq_iff_eq.mpr hn]
  · rw [if_neg hn, beq_eq_false_iff_ne.mpr hn]

theorem lookup_mergeInto (line : Nat) (skips : LineSkips) {lines : List (Nat × LineSkips)}
    (h : lines.Pairwise fun a b => a.1 < b.1) (n : Nat) :
    (mergeInto line skips lines).lookup n =
      if n = line then some (((lines.lookup line).getD .empty).merge skips)
      else lines.lookup n := by
  fun_induction mergeInto line skips lines with
  | case1 => rw [lookup_cons_eq_ite]; rfl
  | case2 other present lines hlt =>
      -- the line comes before all others, so the map had nothing on it
      have hnone : ((other, present) :: lines).lookup line = none := by
        rw [List.lookup_eq_none_iff]
        intro e he
        exact bne_iff_ne.mpr (Nat.ne_of_lt (lt_of_mem_cons hlt h e he))
      rw [hnone, lookup_cons_eq_ite, Option.getD_none]
  | case3 present lines hnot =>
      rw [List.lookup_cons_self, Option.getD_some, lookup_cons_eq_ite, lookup_cons_eq_ite]
      by_cases hn : n = line <;> simp [hn]
  | case4 other present lines hnot hne ih =>
      rw [lookup_cons_eq_ite, ih (List.pairwise_cons.mp h).2, lookup_cons_eq_ite,
        lookup_cons_eq_ite, if_neg hne]
      by_cases hn : n = other
      · rw [if_pos hn, if_pos hn, if_neg fun hline => hne (hline.symm.trans hn)]
      · rw [if_neg hn, if_neg hn]

/-- **Adding on one line** changes the entry of this line only. -/
theorem get?_merge {m : SuppressionMap} (h : m.WellFormed) (line : Nat) (skips : LineSkips)
    (n : Nat) :
    (m.merge line skips).get? n =
      if n = line then some (((m.get? line).getD .empty).merge skips) else m.get? n :=
  lookup_mergeInto line skips h.increasing n

theorem has_merge {m : SuppressionMap} (h : m.WellFormed) (line : Nat) (skips : LineSkips)
    (n : Nat) (e : Effect) :
    EntryHas ((m.merge line skips).get? n) e ↔
      EntryHas (m.get? n) e ∨ n = line ∧ skips.Has e := by
  rw [get?_merge h]
  by_cases hn : n = line
  · subst hn
    rw [if_pos rfl, entryHas_some]
    cases m.get? n with
    | none => simp [LineSkips.has_empty_merge]
    | some s => simp [LineSkips.has_merge]
  · simp [hn]

/-! ### Markers -/

theorem wellFormed_ofComments (comments : List Comment) : (ofComments comments).WellFormed := by
  suffices h : ∀ (markers : List Comment) (m : SuppressionMap), m.WellFormed →
      (markers.foldl (fun m c => m.add c.line c.skips) m).WellFormed from
    h _ empty wellFormed_empty
  intro markers
  induction markers with
  | nil => exact fun m hm => hm
  | cons c markers ih => exact fun m hm => ih _ (hm.merge c.line _)

theorem has_ofComments (comments : List Comment) (n : Nat) (e : Effect) :
    EntryHas ((ofComments comments).get? n) e ↔
      ∃ c ∈ comments, c.isMarker = true ∧ c.line = n ∧ (LineSkips.ofMarker c.skips).Has e := by
  -- the induction is over the markers that are left, from the map that the others have made
  suffices h : ∀ (markers : List Comment) (m : SuppressionMap), m.WellFormed →
      (EntryHas ((markers.foldl (fun m c => m.add c.line c.skips) m).get? n) e ↔
        EntryHas (m.get? n) e ∨
          ∃ c ∈ markers, c.line = n ∧ (LineSkips.ofMarker c.skips).Has e) by
    have hempty : ¬ EntryHas (empty.get? n) e := entryHas_none e
    rw [ofComments, h _ empty wellFormed_empty, or_iff_right hempty]
    simp only [List.mem_filter, and_assoc]
  intro markers
  induction markers with
  | nil => simp
  | cons c markers ih =>
      intro m hm
      have hadd : (m.add c.line c.skips).WellFormed := hm.merge c.line _
      rw [List.foldl_cons, ih _ hadd, add, has_merge hm, or_assoc, eq_comm (a := n)]
      simp only [List.mem_cons, exists_eq_or_imp]

end SuppressionMap

namespace CommentTree

/-- What the markers on a line say about it; `none` if there is no marker on it. -/
def marked (tree : CommentTree) (line : Nat) : Option LineSkips :=
  let markers := tree.comments.filter fun c => c.isMarker && decide (c.line = line)
  if markers.isEmpty then none
  else some ⟨markers.any fun c => c.skips.isEmpty, NameSet.ofList (markers.flatMap Comment.skips)⟩

theorem has_marked (tree : CommentTree) (n : Nat) (e : Effect) :
    EntryHas (tree.marked n) e ↔
      ∃ c ∈ tree.comments, c.isMarker = true ∧ c.line = n ∧
        (LineSkips.ofMarker c.skips).Has e := by
  have hmem : ∀ c, c ∈ tree.comments.filter (fun c => c.isMarker && decide (c.line = n)) ↔
      c ∈ tree.comments ∧ c.isMarker = true ∧ c.line = n := by
    simp
  unfold marked
  -- from here on, only which markers there are counts
  generalize tree.comments.filter _ = markers at hmem
  simp only [← and_assoc, ← hmem]
  cases markers with
  | nil => simp
  | cons c markers =>
      rw [List.isEmpty_cons, if_neg Bool.false_ne_true, entryHas_some]
      cases e with
      | entry => simp [LineSkips.Has]
      | everything => simp [LineSkips.Has, LineSkips.ofMarker]
      | name text => simp [LineSkips.Has, LineSkips.ofMarker]

/-- **Before anything is carried**, a line has what the markers on it say. -/
theorem get?_ofComments (tree : CommentTree) (n : Nat) :
    (SuppressionMap.ofComments tree.comments).get? n = tree.marked n := by
  refine entry_ext ((SuppressionMap.wellFormed_ofComments tree.comments).sets_get? n) ?_ fun e => ?_
  · intro s hs
    unfold marked at hs
    dsimp only at hs
    split at hs
    · exact nomatch hs
    · cases hs
      exact NameSet.pairwise_ofList _
  · rw [SuppressionMap.has_ofComments, has_marked]

end CommentTree

end PlaybookLint
