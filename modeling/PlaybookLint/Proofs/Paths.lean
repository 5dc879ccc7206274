import PlaybookLint.Tree

/-!
# Nodes under their paths

Following a path looks at content only, and changing a note at one path leaves everything else as it
was.

## Main definitions

* `Tree.ChangesNote` - a function that changes nothing but the note of a node.

## Main statements

* `Tree.at?_map` - a path leads to the same content whatever the notes are.
* `Tree.at?_append` - a path may be followed in two parts.
* `Tree.at?_updateAt_self` - where a change is made, the changed node stands.
* `Tree.at?_updateAt` - what stands under a path after a note has been changed under another.
* `Tree.note_at?_updateAt`, `Tree.keys_at?_updateAt` - which notes and keys stand there.
* `Tree.erase_updateAt` - changing a note changes no content.
-/

namespace PlaybookLint

theorem map_modify_of_forall {g : α → β} {f : α → α} (h : ∀ a, g (f a) = g a) (l : List α)
    (i : Nat) : (l.modify i f).map g = l.map g := by
  refine List.ext_getElem? fun j => ?_
  rw [List.getElem?_map, List.getElem?_map, List.getElem?_modify]
  by_cases hj : i = j
  · cases l[j]? <;> simp [hj, h]
  · simp [hj]

namespace Tree

/-! ### Following a path -/

theorem child?_map (f : α → β) (t : Tree α) (step : Step) :
    (t.map f).child? step = (t.child? step).map (map f) := by
  cases t <;> cases step <;> simp [child?, Function.comp_def]

@[simp] theorem at?_nil (t : Tree α) : t.at? [] = some t := by
  cases t <;> rfl

theorem at?_cons (t : Tree α) (step : Step) (path : TreePath) :
    t.at? (step :: path) = (t.child? step).bind fun c => c.at? path := by
  cases t <;> rfl

/-- A path leads to the same content whatever the notes are. -/
theorem at?_map (f : α → β) (t : Tree α) (path : TreePath) :
    (t.map f).at? path = (t.at? path).map (map f) := by
  induction path generalizing t with
  | nil => rw [at?_nil, at?_nil, Option.map_some]
  | cons step path ih =>
      rw [at?_cons, at?_cons, child?_map]
      cases t.child? step with
      | none => rfl
      | some c => exact ih c

/-- A path may be followed in two parts. -/
theorem at?_append (t : Tree α) (path rest : TreePath) :
    t.at? (path ++ rest) = (t.at? path).bind fun c => c.at? rest := by
  induction path generalizing t with
  | nil => rw [at?_nil]; rfl
  | cons step path ih =>
      rw [List.cons_append, at?_cons, at?_cons]
      cases t.child? step with
      | none => rfl
      | some c => exact ih c

/-- A path that leads somewhere in a tree leads to the same content in any tree with the same
content. -/
theorem exists_at?_of_erase {t : Tree α} {u : Tree β} (h : t.erase = u.erase) {path : TreePath}
    {node : Tree β} (hnode : u.at? path = some node) :
    ∃ own, t.at? path = some own ∧ own.erase = node.erase := by
  have hpath := congrArg (fun root : Tree Unit => root.at? path) h
  rw [erase, erase, at?_map, at?_map, hnode, Option.map_some] at hpath
  exact Option.map_eq_some_iff.mp hpath

/-! ### Changing a note -/

@[simp] theorem note_setNote (note : α) (t : Tree α) : (t.setNote note).note = note := by
  cases t <;> rfl

@[simp] theorem entries_setNote (note : α) (t : Tree α) : (t.setNote note).entries = t.entries := by
  cases t <;> rfl

@[simp] theorem child?_setNote (note : α) (t : Tree α) (step : Step) :
    (t.setNote note).child? step = t.child? step := by
  cases t <;> cases step <;> rfl

@[simp] theorem erase_setNote (note : α) (t : Tree α) : (t.setNote note).erase = t.erase := by
  cases t <;> simp [setNote]

@[simp] theorem updateAt_nil (f : Tree α → Tree α) (t : Tree α) : updateAt f [] t = f t := by
  rw [updateAt]

/-- The child on the way to the node that changes, changes; the others stay. -/
theorem child?_updateAt (f : Tree α → Tree α) (first : Step) (path : TreePath) (t : Tree α)
    (step : Step) :
    (updateAt f (first :: path) t).child? step =
      if first = step then (t.child? step).map (updateAt f path) else t.child? step := by
  by_cases hstep : first = step
  · subst hstep
    rw [if_pos rfl]
    cases t <;> cases first <;> simp [updateAt, child?, Function.comp_def]
  · rw [if_neg hstep]
    cases t <;> cases first <;> cases step <;> simp_all [updateAt, child?]

/-- Where a change is made, the changed node stands. -/
theorem at?_updateAt_self (f : Tree α → Tree α) (path : TreePath) (t : Tree α) :
    (updateAt f path t).at? path = (t.at? path).map f := by
  induction path generalizing t with
  | nil => rw [updateAt_nil, at?_nil, at?_nil, Option.map_some]
  | cons step path ih =>
      rw [at?_cons, at?_cons, child?_updateAt, if_pos rfl]
      cases t.child? step with
      | none => rfl
      | some c => exact ih c

/-- Nothing but the note of a node is changed. -/
def ChangesNote (f : Tree α → Tree α) : Prop :=
  ∀ t, ∃ note, f t = t.setNote note

theorem changesNote_setNote (note : α) : ChangesNote (setNote note) :=
  fun _ => ⟨note, rfl⟩

section Frame

variable {f : Tree α → Tree α}

theorem ChangesNote.child? (hf : ChangesNote f) (t : Tree α) (step : Step) :
    (f t).child? step = t.child? step := by
  obtain ⟨note, hnote⟩ := hf t
  rw [hnote, child?_setNote]

/-- **The frame of a change.**  After a note has been changed at `path`, the nodes on the way there
have changed below, and any other node stands where it stood. -/
theorem at?_updateAt (hf : ChangesNote f) (path : TreePath) (t : Tree α) (p : TreePath) :
    (updateAt f path t).at? p =
      if p <+: path then (t.at? p).map (updateAt f (path.drop p.length)) else t.at? p := by
  induction p generalizing t path with
  | nil => simp
  | cons step p ih =>
      cases path with
      | nil => simp [at?_cons, hf.child?]
      | cons first path =>
          rw [at?_cons, at?_cons, child?_updateAt]
          by_cases hstep : first = step
          · subst hstep
            cases t.child? first with
            | none => simp
            | some c => simp [ih]
          · -- the paths part here, and the node stands beside what has changed
            have hprefix : ¬ step :: p <+: first :: path := fun h =>
              hstep (List.cons_prefix_cons.mp h).1.symm
            rw [if_neg hstep, if_neg hprefix]

theorem note_updateAt_cons (f : Tree α → Tree α) (step : Step) (path : TreePath)
    (t : Tree α) : (updateAt f (step :: path) t).note = t.note := by
  cases t <;> cases step <;> simp only [updateAt, note]

/-- After the note at `path` has been changed, every other node has the note that it had. -/
theorem note_at?_updateAt (hf : ChangesNote f) (path : TreePath) (t : Tree α) (p : TreePath) :
    ((updateAt f path t).at? p).map Tree.note =
      (t.at? p).map fun node => if path = p then (f node).note else node.note := by
  rw [at?_updateAt hf]
  split
  next hprefix =>
    obtain ⟨rest, hrest⟩ := hprefix
    rw [← hrest, List.drop_left, Option.map_map]
    congr 1
    funext node
    cases rest with
    | nil => rw [List.append_nil, if_pos rfl, Function.comp, updateAt_nil]
    | cons step rest =>
        -- the node is on the way to the one that changes
        have hne : p ++ step :: rest ≠ p := by simp
        rw [if_neg hne]
        exact note_updateAt_cons f step rest node
  next hprefix =>
    have hne : path ≠ p := fun h => hprefix (h ▸ List.prefix_refl p)
    simp only [if_neg hne]

/-- The keys of a mapping. -/
def keys (t : Tree α) : List (Tree α) :=
  t.entries.map Prod.fst

theorem keys_updateAt (hf : ChangesNote f) (path : TreePath) (t : Tree α) :
    (updateAt f path t).keys = t.keys := by
  cases path with
  | nil =>
      obtain ⟨note, hnote⟩ := hf t
      rw [updateAt_nil, hnote, keys, entries_setNote, keys]
  | cons step path =>
      cases t <;> cases step <;> simp only [updateAt]
      case sequence.item => rfl
      case mapping.entry line old entries i =>
          have hfst : ∀ e : Tree α × Tree α, Prod.fst (e.1, updateAt f path e.2) = Prod.fst e :=
            fun _ => rfl
          exact map_modify_of_forall hfst entries i

/-- Changing a note changes no key anywhere. -/
theorem keys_at?_updateAt (hf : ChangesNote f) (path : TreePath) (t : Tree α) (p : TreePath) :
    ((updateAt f path t).at? p).map keys = (t.at? p).map keys := by
  rw [at?_updateAt hf]
  split
  · rw [Option.map_map]
    congr 1
    funext node
    exact keys_updateAt hf _ node
  · rfl

/-- Changing a note changes no content. -/
theorem erase_updateAt (hf : ChangesNote f) (path : TreePath) (t : Tree α) :
    (updateAt f path t).erase = t.erase := by
  induction path generalizing t with
  | nil =>
      obtain ⟨note, hnote⟩ := hf t
      rw [updateAt_nil, hnote, erase_setNote]
  | cons step path ih =>
      -- a step that does not fit the node leaves it as it is
      cases t <;> cases step <;> simp only [updateAt]
      case sequence.item line old items i =>
          rw [erase_sequence, erase_sequence, map_modify_of_forall ih]
      case mapping.entry line old entries i =>
          have hvalue : ∀ e : Tree α × Tree α,
              Prod.map erase erase (e.1, updateAt f path e.2) = Prod.map erase erase e :=
            fun e => by rw [Prod.map, ih e.2]; rfl
          rw [erase_mapping, erase_mapping, map_modify_of_forall hvalue]

end Frame

end Tree

end PlaybookLint
