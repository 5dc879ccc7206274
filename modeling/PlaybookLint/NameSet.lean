/-!
# Sets of identifiers

A set of identifiers is the list of its members, strictly increasing. The list is what is shown and
stored, so the operations work on it directly.
-/

namespace PlaybookLint.NameSet

/-- The set with one more member. -/
def insert (name : String) : List String → List String
  | [] => [name]
  | other :: names =>
    if name < other then name :: other :: names
    else if name = other then other :: names
    else other :: insert name names

@[simp] theorem mem_insert {name x : String} {names : List String} :
    x ∈ insert name names ↔ x = name ∨ x ∈ names := by
  fun_induction insert name names <;> grind

/-- Inserting keeps the members in order. -/
theorem pairwise_insert {names : List String} (name : String)
    (increasing : names.Pairwise (· < ·)) : (insert name names).Pairwise (· < ·) := by
  fun_induction insert name names with
  | case1 => simp
  | case2 other names before =>
    simp only [List.pairwise_cons] at increasing ⊢
    exact ⟨fun x hx => by
      rcases List.mem_cons.1 hx with rfl | hx
      · exact before
      · exact String.lt_trans before (increasing.1 x hx), increasing⟩
  | case3 => exact increasing
  | case4 other names notBefore different ih =>
    simp only [List.pairwise_cons] at increasing ⊢
    refine ⟨fun x hx => ?_, ih increasing.2⟩
    rcases mem_insert.1 hx with rfl | hx
    · exact Decidable.byContradiction fun h =>
        different (String.le_antisymm (String.not_lt.1 h) (String.not_lt.1 notBefore))
    · exact increasing.1 x hx

/-- The set with more members. -/
def insertAll (names : List String) (set : List String) : List String :=
  names.foldr insert set

/-- The set with these members. -/
def ofList (names : List String) : List String :=
  insertAll names []

@[simp] theorem mem_insertAll {x : String} {names set : List String} :
    x ∈ insertAll names set ↔ x ∈ names ∨ x ∈ set := by
  induction names with
  | nil => simp [insertAll]
  | cons name names ih => simpa [insertAll, or_assoc] using or_congr_right ih

@[simp] theorem mem_ofList {x : String} {names : List String} : x ∈ ofList names ↔ x ∈ names := by
  simp [ofList]

/-- Inserting several names keeps the members in order. -/
theorem pairwise_insertAll {set : List String} (names : List String)
    (increasing : set.Pairwise (· < ·)) : (insertAll names set).Pairwise (· < ·) := by
  induction names with
  | nil => exact increasing
  | cons name names ih => exact pairwise_insert name ih

theorem pairwise_ofList (names : List String) : (ofList names).Pairwise (· < ·) :=
  pairwise_insertAll names .nil

/-- A set is determined by its members. -/
theorem eq_of_mem_iff {s t : List String} (hs : s.Pairwise (· < ·)) (ht : t.Pairwise (· < ·))
    (h : ∀ x, x ∈ s ↔ x ∈ t) : s = t := by
  have hnodup : ∀ {l : List String}, l.Pairwise (· < ·) → l.Nodup :=
    fun hl => hl.imp fun hlt => String.ne_of_lt hlt
  refine List.Perm.eq_of_pairwise (fun a b _ _ hab hba => ?_) hs ht
    ((List.perm_ext_iff_of_nodup (hnodup hs) (hnodup ht)).mpr h)
  exact absurd hab (String.lt_asymm hba)

end PlaybookLint.NameSet
