import PlaybookLint.Pattern

/-!
# Matches of patterns

What a match of a pattern is, said without sets of places: a relation between the place where it
starts and the place where it ends. Looking for matches by rounds on sets of places finds exactly
these. An unbounded repetition needs no more rounds than the text has places, since steps that read
nothing can be left out.

## Main definitions

* `Pattern.Matches` - a match from one place of a text to another.

## Main statements

* `Pattern.Chain.shorten` - a repetition needs no more steps than it reads characters.
* `Pattern.mem_ends_iff` - the places that are found are the ends of matches.
* `Pattern.matchesStart_iff` - a text is accepted if some match starts at its first character.
-/

namespace PlaybookLint

namespace Pattern

/-- A chain of `n` steps from one place to another. -/
def Chain (step : Nat → Nat → Prop) : (n : Nat) → Nat → Nat → Prop
  | 0, i, j => i = j
  | n + 1, i, j => ∃ k, step i k ∧ Chain step n k j

/-- A match of a pattern in a text, from the place before character `i` to the place before
character `j`. -/
def Matches (text : Array Char) : Pattern → Nat → Nat → Prop
  | .empty, i, j => j = i
  | .charIn cls, i, j => (∃ c, text[i]? = some c ∧ cls.contains c = true) ∧ j = i + 1
  | .look l, i, j => l.holds text i = true ∧ j = i
  | .seq p q, i, j => ∃ k, p.Matches text i k ∧ q.Matches text k j
  | .alt p q, i, j => p.Matches text i j ∨ q.Matches text i j
  | .repeated p least most, i, j =>
    ∃ n, least ≤ n ∧ (∀ m ∈ most, n ≤ max least m) ∧ Chain (p.Matches text) n i j

variable {text : Array Char}

/-! ### Rounds -/

section Rounds

variable {f : Places → Places} {step : Nat → Nat → Prop} {s : Places} {j : Nat}

theorem times_of_fixed (h : f s = s) (n : Nat) : Places.times f n s = s := by
  cases n with
  | zero => rfl
  | succ n => simp [Places.times, h]

/-- Stopping early makes no difference. -/
theorem times_succ (n : Nat) : Places.times f (n + 1) s = Places.times f n (f s) := by
  rw [Places.times]
  split
  next h => rw [h, times_of_fixed h]
  next => rfl

theorem upTo_of_fixed (h : Places.union s (f s) = s) (n : Nat) : Places.upTo f n s = s := by
  cases n with
  | zero => rfl
  | succ n => simp [Places.upTo, h]

theorem upTo_succ (n : Nat) :
    Places.upTo f (n + 1) s = Places.upTo f n (Places.union s (f s)) := by
  rw [Places.upTo]
  split
  next h => rw [h, upTo_of_fixed h]
  next => rfl

variable (hf : ∀ s j, j ∈ f s ↔ ∃ i ∈ s, step i j)
include hf

/-- **Exactly `n` rounds** reach what chains of `n` steps reach. -/
theorem mem_times_iff (n : Nat) :
    j ∈ Places.times f n s ↔ ∃ i ∈ s, Chain step n i j := by
  induction n generalizing s with
  | zero => simp [Places.times, Chain]
  | succ n ih =>
      rw [times_succ, ih]
      constructor
      · rintro ⟨k, hk, hchain⟩
        obtain ⟨i, hi, hstep⟩ := (hf s k).mp hk
        exact ⟨i, hi, k, hstep, hchain⟩
      · rintro ⟨i, hi, k, hstep, hchain⟩
        exact ⟨k, (hf s k).mpr ⟨i, hi, hstep⟩, hchain⟩

/-- **At most `n` rounds** reach what chains of at most `n` steps reach. -/
theorem mem_upTo_iff (n : Nat) :
    j ∈ Places.upTo f n s ↔ ∃ i ∈ s, ∃ k, k ≤ n ∧ Chain step k i j := by
  induction n generalizing s with
  | zero =>
      rw [Places.upTo]
      constructor
      · exact fun hj => ⟨j, hj, 0, Nat.le_refl 0, rfl⟩
      · rintro ⟨i, hi, k, hk, hchain⟩
        obtain rfl := Nat.le_zero.mp hk
        obtain rfl : i = j := hchain
        exact hi
  | succ n ih =>
      rw [upTo_succ, ih]
      constructor
      · rintro ⟨i, hi, k, hk, hchain⟩
        rcases Places.mem_union.mp hi with hi | hi
        · exact ⟨i, hi, k, Nat.le_succ_of_le hk, hchain⟩
        · obtain ⟨start, hstart, hstep⟩ := (hf s i).mp hi
          exact ⟨start, hstart, k + 1, Nat.succ_le_succ hk, i, hstep, hchain⟩
      · rintro ⟨i, hi, k, hk, hchain⟩
        cases k with
        | zero => exact ⟨i, Places.mem_union.mpr (.inl hi), 0, Nat.zero_le n, hchain⟩
        | succ k =>
            obtain ⟨next, hstep, hchain⟩ := hchain
            refine ⟨next, Places.mem_union.mpr (.inr ((hf s next).mpr ⟨i, hi, hstep⟩)), k,
              Nat.le_of_succ_le_succ hk, hchain⟩

end Rounds

/-! ### Chains -/

section Chains

variable {step : Nat → Nat → Prop} {size i j : Nat}

theorem chain_add {m n : Nat} :
    Chain step (m + n) i j ↔ ∃ k, Chain step m i k ∧ Chain step n k j := by
  induction m generalizing i with
  | zero => simp [Chain]
  | succ m ih =>
      rw [Nat.succ_add]
      simp only [Chain, ih]
      constructor
      · rintro ⟨next, hstep, k, hfirst, hsecond⟩
        exact ⟨k, ⟨next, hstep, hfirst⟩, hsecond⟩
      · rintro ⟨k, ⟨next, hstep, hfirst⟩, hsecond⟩
        exact ⟨next, hstep, k, hfirst, hsecond⟩

/-- A chain of steps that go forward goes forward, and if it moves at all, it ends inside. -/
theorem Chain.le (hstep : ∀ i j, step i j → i ≤ j ∧ (j = i ∨ j ≤ size)) {n : Nat}
    (h : Chain step n i j) : i ≤ j ∧ (j = i ∨ j ≤ size) := by
  induction n generalizing i with
  | zero =>
      obtain rfl : i = j := h
      exact ⟨Nat.le_refl i, .inl rfl⟩
  | succ n ih =>
      obtain ⟨k, hk, hchain⟩ := h
      have hfirst := hstep i k hk
      have hrest := ih hchain
      omega

/-- **A chain need not be longer than the way it goes**: steps that stay where they are can be left
out. -/
theorem Chain.shorten (hstep : ∀ i j, step i j → i ≤ j ∧ (j = i ∨ j ≤ size)) {n : Nat}
    (h : Chain step n i j) : ∃ k, k ≤ j - i ∧ Chain step k i j := by
  induction n generalizing i with
  | zero => exact ⟨0, Nat.zero_le _, h⟩
  | succ n ih =>
      obtain ⟨next, hfirst, hchain⟩ := h
      obtain ⟨k, hle, hshort⟩ := ih hchain
      have hforward := (hstep i next hfirst).1
      have hrest := (hchain.le hstep).1
      by_cases hstay : next = i
      · exact ⟨k, hstay ▸ hle, hstay ▸ hshort⟩
      · exact ⟨k + 1, by omega, next, hfirst, hshort⟩

end Chains

/-! ### Matches -/

/-- A match goes forward, and if it reads anything, it ends inside the text. -/
theorem Matches.le {p : Pattern} {i j : Nat} (h : p.Matches text i j) :
    i ≤ j ∧ (j = i ∨ j ≤ text.size) := by
  induction p generalizing i j with
  | empty =>
      obtain rfl : j = i := h
      exact ⟨Nat.le_refl j, .inl rfl⟩
  | charIn cls =>
      obtain ⟨⟨c, hc, -⟩, rfl⟩ := h
      have hlt : i < text.size := (Array.getElem?_eq_some_iff.mp hc).1
      exact ⟨Nat.le_succ i, .inr hlt⟩
  | look l =>
      obtain ⟨-, rfl⟩ := h
      exact ⟨Nat.le_refl j, .inl rfl⟩
  | seq p q hp hq =>
      obtain ⟨k, hfirst, hsecond⟩ := h
      have := hp hfirst
      have := hq hsecond
      omega
  | alt p q hp hq => exact h.elim hp hq
  | repeated p least most hp =>
      obtain ⟨n, -, -, hchain⟩ := h
      exact hchain.le fun _ _ => hp

/-- A repetition without an upper bound needs no more steps than the text has places. -/
theorem exists_chain_le {p : Pattern} {n i j : Nat} (h : Chain (p.Matches text) n i j) :
    ∃ k, k ≤ text.size + 1 ∧ Chain (p.Matches text) k i j := by
  obtain ⟨k, hk, hshort⟩ := h.shorten fun _ _ => Matches.le
  have hbound := (h.le fun _ _ => Matches.le).2
  exact ⟨k, by omega, hshort⟩

/-- A repetition is as many steps as are needed at least, and then as many as are allowed. -/
theorem matches_repeated_iff {p : Pattern} {least : Nat} {most : Option Nat} {i j : Nat} :
    (Pattern.repeated p least most).Matches text i j ↔
      ∃ k, Chain (p.Matches text) least i k ∧
        ∃ n, n ≤ (most.map (· - least)).getD (text.size + 1) ∧ Chain (p.Matches text) n k j := by
  constructor
  · rintro ⟨n, hleast, hmost, hchain⟩
    obtain ⟨more, rfl⟩ := Nat.exists_eq_add_of_le hleast
    obtain ⟨k, hfirst, hsecond⟩ := chain_add.mp hchain
    cases most with
    | none =>
        obtain ⟨m, hm, hshort⟩ := exists_chain_le hsecond
        exact ⟨k, hfirst, m, hm, hshort⟩
    | some m =>
        have hbound := hmost m rfl
        exact ⟨k, hfirst, more, by show more ≤ m - least; omega, hsecond⟩
  · rintro ⟨k, hfirst, more, hmore, hsecond⟩
    refine ⟨least + more, Nat.le_add_right .., ?_, chain_add.mpr ⟨k, hfirst, hsecond⟩⟩
    rintro m rfl
    have hbound : more ≤ m - least := hmore
    omega

/-- **The places that are found** from some places are the ends of the matches from there. -/
theorem mem_ends_iff (p : Pattern) (s : Places) (j : Nat) :
    j ∈ p.ends text s ↔ ∃ i ∈ s, p.Matches text i j := by
  induction p generalizing s j with
  | empty => simp [ends, Matches]
  | charIn cls =>
      simp only [ends, Matches, List.mem_map, List.mem_filter, Option.any_eq_true]
      constructor
      · rintro ⟨i, ⟨hi, hc⟩, rfl⟩
        exact ⟨i, hi, hc, rfl⟩
      · rintro ⟨i, hi, hc, rfl⟩
        exact ⟨i, ⟨hi, hc⟩, rfl⟩
  | look l =>
      simp only [ends, Matches, List.mem_filter]
      constructor
      · exact fun ⟨hj, hholds⟩ => ⟨j, hj, hholds, rfl⟩
      · rintro ⟨i, hi, hholds, rfl⟩
        exact ⟨hi, hholds⟩
  | seq p q hp hq =>
      simp only [ends, Matches, hq, hp]
      constructor
      · rintro ⟨k, ⟨i, hi, hfirst⟩, hsecond⟩
        exact ⟨i, hi, k, hfirst, hsecond⟩
      · rintro ⟨i, hi, k, hfirst, hsecond⟩
        exact ⟨k, ⟨i, hi, hfirst⟩, hsecond⟩
  | alt p q hp hq =>
      simp only [ends, Matches, Places.mem_union, hp, hq]
      rw [← exists_or]
      simp only [and_or_left]
  | repeated p least most hp =>
      rw [ends, mem_upTo_iff hp]
      simp only [mem_times_iff hp, matches_repeated_iff]
      constructor
      · rintro ⟨k, ⟨i, hi, hfirst⟩, n, hn, hsecond⟩
        exact ⟨i, hi, k, hfirst, n, hn, hsecond⟩
      · rintro ⟨i, hi, k, hfirst, n, hn, hsecond⟩
        exact ⟨k, ⟨i, hi, hfirst⟩, n, hn, hsecond⟩

/-- **A text is accepted** if some match starts at its first character. -/
theorem matchesStart_iff {p : Pattern} {cs : List Char} :
    p.matchesStart cs = true ↔ ∃ j, p.Matches cs.toArray 0 j := by
  have hfound : p.matchesStart cs = true ↔ ∃ j, j ∈ p.ends cs.toArray [0] := by
    rw [matchesStart, Bool.not_eq_true', List.isEmpty_eq_false_iff_exists_mem]
  rw [hfound]
  simp only [mem_ends_iff, List.mem_singleton, exists_eq_left]

end Pattern

end PlaybookLint
