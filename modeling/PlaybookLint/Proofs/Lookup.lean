import PlaybookLint.Tree

/-!
# Looking up keys

A mapping may have several entries with one key, and the last of them counts.

## Main definitions

* `Tree.HasKey` - the entry at a place has a key.
* `Tree.LastEntry` - the entry at a place is the last one with a key.
* `Tree.lastValue?` - the value of the last of some entries with a key.

## Main statements

* `Tree.lookup?_eq_some_iff` - looking up a key finds the last entry with it.
* `Tree.get?_eq_lastValue?_filter` - entries with other keys do not matter.
-/

namespace PlaybookLint

namespace Tree

/-- The entry at a place has a key. -/
def HasKey (entries : List (Tree α × Tree α)) (i : Nat) (key : String) : Prop :=
  (entries[i]?.bind fun e => e.1.string?) = some key

theorem HasKey.unique {entries : List (Tree α × Tree α)} {i : Nat} {key key' : String}
    (h : HasKey entries i key) (h' : HasKey entries i key') : key = key' :=
  Option.some.inj (h.symm.trans h')

/-- An entry of a mapping is the last one with a key. -/
structure LastEntry (t : Tree α) (key : String) (i : Nat) (value : Tree α) : Prop where
  child? : t.child? (.entry i) = some value
  hasKey : HasKey t.entries i key
  last : ∀ j, i < j → ¬ HasKey t.entries j key

theorem lookupFrom_eq_none_iff {key : String} {index : Nat} {entries : List (Tree α × Tree α)} :
    lookupFrom key index entries = none ↔ ∀ j, ¬ HasKey entries j key := by
  induction entries generalizing index with
  | nil => exact iff_of_true rfl fun _ => nofun
  | cons e entries ih =>
      obtain ⟨k, v⟩ := e
      rw [lookupFrom]
      cases hlater : lookupFrom key (index + 1) entries with
      | some found =>
          have hfound : ¬ ∀ j, ¬ HasKey entries j key := by
            intro hnone
            rw [ih.mpr hnone] at hlater
            exact nomatch hlater
          exact iff_of_false (Option.some_ne_none found) fun hnone =>
            hfound fun j => hnone (j + 1)
      | none =>
          have hnone := ih.mp hlater
          by_cases hkey : k.string? = some key
          · simp only [hkey, if_true]
            exact iff_of_false (Option.some_ne_none _) fun h => h 0 hkey
          · simp only [hkey, if_false, true_iff]
            intro j
            cases j with
            | zero => exact hkey
            | succ j => exact hnone j

theorem lookupFrom_eq_some_iff {key : String} {index i : Nat} {value : Tree α}
    {entries : List (Tree α × Tree α)} :
    lookupFrom key index entries = some (i, value) ↔
      ∃ j, i = index + j ∧ entries[j]?.map Prod.snd = some value ∧ HasKey entries j key ∧
        ∀ later, j < later → ¬ HasKey entries later key := by
  induction entries generalizing index with
  | nil => simp [lookupFrom]
  | cons e entries ih =>
      obtain ⟨k, v⟩ := e
      rw [lookupFrom]
      cases hlater : lookupFrom key (index + 1) entries with
      | some found =>
          dsimp only
          rw [← hlater, ih]
          constructor
          · rintro ⟨j, rfl, hvalue, hkey, hlast⟩
            refine ⟨j + 1, by omega, hvalue, hkey, fun later hlt => ?_⟩
            obtain ⟨later, rfl⟩ := Nat.exists_eq_succ_of_ne_zero (Nat.ne_zero_of_lt hlt)
            exact hlast later (by omega)
          · rintro ⟨j, rfl, hvalue, hkey, hlast⟩
            cases j with
            | zero =>
                -- a later entry has the key, so that the first one is not the last
                have hnone : lookupFrom key (index + 1) entries = none :=
                  lookupFrom_eq_none_iff.mpr fun j => hlast (j + 1) (Nat.succ_pos j)
                rw [hlater] at hnone
                exact nomatch hnone
            | succ j =>
                refine ⟨j, by omega, hvalue, hkey, fun later hlt => ?_⟩
                exact hlast (later + 1) (by omega)
      | none =>
          have hnone := lookupFrom_eq_none_iff.mp hlater
          dsimp only
          constructor
          · intro h
            split at h
            next hkey =>
              cases h
              refine ⟨0, rfl, rfl, hkey, fun later hlt => ?_⟩
              obtain ⟨later, rfl⟩ := Nat.exists_eq_succ_of_ne_zero (Nat.ne_zero_of_lt hlt)
              exact hnone later
            next => exact nomatch h
          · rintro ⟨j, rfl, hvalue, hkey, -⟩
            cases j with
            | zero =>
                have hfirst : k.string? = some key := hkey
                have hsame : v = value := Option.some.inj hvalue
                rw [if_pos hfirst, hsame, Nat.add_zero]
            | succ j => exact absurd hkey (hnone j)

/-- **Looking up a key** finds the last entry with it. -/
theorem lookup?_eq_some_iff {t value : Tree α} {key : String} {i : Nat} :
    t.lookup? key = some (i, value) ↔ t.LastEntry key i value := by
  rw [lookup?, lookupFrom_eq_some_iff]
  constructor
  · rintro ⟨j, hj, hvalue, hkey, hlast⟩
    obtain rfl : i = j := by omega
    cases t with
    | mapping line note entries => exact ⟨hvalue, hkey, hlast⟩
    | scalar | sequence => exact nomatch hvalue
  · rintro ⟨hchild, hkey, hlast⟩
    cases t with
    | mapping line note entries => exact ⟨i, by omega, hchild, hkey, hlast⟩
    | scalar | sequence => exact nomatch hchild

/-- The value of the last of some entries with a key. -/
def lastValue? (entries : List (Tree α × Tree α)) (key : String) : Option (Tree α) :=
  (entries.reverse.find? fun e => e.1.string? = some key).map Prod.snd

/-- An entry counts if no later one has the key. -/
theorem lastValue?_cons (e : Tree α × Tree α) (entries : List (Tree α × Tree α)) (key : String) :
    lastValue? (e :: entries) key =
      (lastValue? entries key).or (if e.1.string? = some key then some e.2 else none) := by
  rw [lastValue?, List.reverse_cons, List.find?_append, Option.map_or, ← lastValue?]
  by_cases hkey : e.1.string? = some key <;> simp [hkey]

theorem snd_lookupFrom (key : String) (index : Nat) (entries : List (Tree α × Tree α)) :
    (lookupFrom key index entries).map Prod.snd = lastValue? entries key := by
  induction entries generalizing index with
  | nil => rfl
  | cons e entries ih =>
      obtain ⟨k, v⟩ := e
      rw [lookupFrom, lastValue?_cons, ← ih (index + 1)]
      cases lookupFrom key (index + 1) entries with
      | some found => rfl
      | none => by_cases hkey : k.string? = some key <;> simp [hkey]

theorem get?_eq_lastValue? (t : Tree α) (key : String) : t.get? key = lastValue? t.entries key :=
  snd_lookupFrom key 0 t.entries

theorem lastValue?_eq_none {entries : List (Tree α × Tree α)} {key : String}
    (h : ∀ e ∈ entries, e.1.string? ≠ some key) : lastValue? entries key = none := by
  rw [lastValue?, Option.map_eq_none_iff, List.find?_eq_none]
  intro e he
  simpa using h e (List.mem_reverse.mp he)

/-- **Entries with other keys do not matter** to the value of a key. -/
theorem get?_eq_lastValue?_filter {t : Tree α} {key : String} {p : Tree α × Tree α → Bool}
    (h : ∀ e, e.1.string? = some key → p e = true) :
    t.get? key = lastValue? (t.entries.filter p) key := by
  rw [get?_eq_lastValue?, lastValue?, lastValue?, ← List.filter_reverse, List.find?_filter]
  congr 2
  funext e
  by_cases hkey : e.1.string? = some key
  · simp [hkey, h e hkey]
  · simp [hkey]

end Tree

end PlaybookLint
