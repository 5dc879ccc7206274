import PlaybookLint.Proofs.Paths
import PlaybookLint.Task.Flatten

/-!
# What content decides

The parts of a node, its keys and its name as a task do not depend on the notes: the same question
asked of a tree with other notes has the same answer, with other notes in it.

## Main statements

* `Tree.lookup?_map` - keys are found at the same places.
* `Tree.taskName?_map` - tasks have the same names.
* `Tree.isTruthy_map`, `Tree.isMapping_map`, `Tree.isString_map` - nodes are of the same kind.
* `Tree.map_eq_self_of_at?`, `Tree.map_eq_self_of_mem_entries` - what leaves all notes as they are
  does so in every part.
-/

namespace PlaybookLint.Tree

/-! ### The parts of a node -/

@[simp] theorem scalar?_map (f : α → β) (t : Tree α) : (t.map f).scalar? = t.scalar? := by
  cases t <;> simp [scalar?]

@[simp] theorem string?_map (f : α → β) (t : Tree α) : (t.map f).string? = t.string? := by
  rw [string?, string?, scalar?_map]

@[simp] theorem isString_map (f : α → β) (t : Tree α) : (t.map f).isString = t.isString := by
  rw [isString, isString, string?_map]

@[simp] theorem isMapping_map (f : α → β) (t : Tree α) : (t.map f).isMapping = t.isMapping := by
  cases t <;> simp [isMapping]

@[simp] theorem isCollection_map (f : α → β) (t : Tree α) :
    (t.map f).isCollection = t.isCollection := by
  cases t <;> simp [isCollection]

theorem isCollection_of_isMapping {t : Tree α} (h : t.isMapping = true) :
    t.isCollection = true := by
  cases t with
  | mapping => rfl
  | scalar | sequence => exact nomatch h

theorem isString_of_isMapping {t : Tree α} (h : t.isMapping = true) : t.isString = false := by
  cases t with
  | mapping => rfl
  | scalar | sequence => exact nomatch h

@[simp] theorem isTruthy_map (f : α → β) (t : Tree α) : (t.map f).isTruthy = t.isTruthy := by
  cases t <;> simp [isTruthy]

@[simp] theorem items?_map (f : α → β) (t : Tree α) :
    (t.map f).items? = t.items?.map (List.map (map f)) := by
  cases t <;> simp [items?]

@[simp] theorem entries_map (f : α → β) (t : Tree α) :
    (t.map f).entries = t.entries.map (Prod.map (map f) (map f)) := by
  cases t <;> simp [entries, entries?]

/-! ### Keys and names -/

theorem lookupFrom_map (f : α → β) (key : String) (index : Nat)
    (entries : List (Tree α × Tree α)) :
    lookupFrom key index (entries.map (Prod.map (map f) (map f))) =
      (lookupFrom key index entries).map (Prod.map id (map f)) := by
  induction entries generalizing index with
  | nil => rfl
  | cons e entries ih =>
      obtain ⟨k, v⟩ := e
      rw [List.map_cons, Prod.map, lookupFrom, lookupFrom, ih]
      cases lookupFrom key (index + 1) entries with
      | some found => rfl
      | none =>
          dsimp only [Option.map_none]
          rw [string?_map]
          split <;> rfl

/-- A key is found at the same place whatever the notes are. -/
theorem lookup?_map (f : α → β) (t : Tree α) (key : String) :
    (t.map f).lookup? key = (t.lookup? key).map (Prod.map id (map f)) := by
  rw [lookup?, lookup?, entries_map, lookupFrom_map]

theorem get?_map (f : α → β) (t : Tree α) (key : String) :
    (t.map f).get? key = (t.get? key).map (map f) := by
  rw [get?, get?, lookup?_map]
  cases t.lookup? key <;> rfl

/-- A task has the same name whatever the notes are. -/
@[simp] theorem taskName?_map (f : α → β) (t : Tree α) : (t.map f).taskName? = t.taskName? := by
  rw [taskName?, taskName?, get?_map, Option.map_map]
  congr 1
  funext name
  cases name <;> simp

/-! ### The same content -/

variable {t : Tree α} {u : Tree β}

theorem isString_eq_of_erase (h : t.erase = u.erase) : t.isString = u.isString := by
  rw [← isString_map (fun _ => ()) t, ← isString_map (fun _ => ()) u]
  exact congrArg isString h

theorem isCollection_eq_of_erase (h : t.erase = u.erase) : t.isCollection = u.isCollection := by
  rw [← isCollection_map (fun _ => ()) t, ← isCollection_map (fun _ => ()) u]
  exact congrArg isCollection h

theorem taskName?_eq_of_erase (h : t.erase = u.erase) : t.taskName? = u.taskName? := by
  rw [← taskName?_map (fun _ => ()) t, ← taskName?_map (fun _ => ()) u]
  exact congrArg taskName? h

/-! ### Notes that stay -/

theorem note_map (f : α → β) (t : Tree α) : (t.map f).note = f t.note := by
  cases t <;> simp [note]

section Fixed

variable {f : α → α} {t node : Tree α}

theorem note_eq_of_map_eq_self (h : t.map f = t) : f t.note = t.note :=
  (note_map f t).symm.trans (congrArg note h)

/-- If all notes stay as they are, so do those below a path. -/
theorem map_eq_self_of_at? (h : t.map f = t) {path : TreePath} (hnode : t.at? path = some node) :
    node.map f = node := by
  have hmap := at?_map f t path
  rw [h, hnode, Option.map_some] at hmap
  exact (Option.some.inj hmap).symm

/-- If all notes stay as they are, so do those of the keys. -/
theorem map_eq_self_of_mem_entries (h : t.map f = t) {e : Tree α × Tree α} (he : e ∈ t.entries) :
    e.1.map f = e.1 := by
  have hmap := entries_map f t
  rw [h] at hmap
  have hfixed := List.map_inj_left.mp (hmap.symm.trans (List.map_id t.entries).symm) e he
  exact congrArg Prod.fst hfixed

/-- If all notes stay as they are, so do those of the items. -/
theorem map_eq_self_of_mem_items (h : t.map f = t) {item : Tree α} (hitem : item ∈ t.items) :
    item.map f = item := by
  have hmap : (t.map f).items = t.items.map (map f) := by
    rw [items, items, items?_map]
    cases t.items? <;> rfl
  rw [h] at hmap
  exact List.map_inj_left.mp (hmap.symm.trans (List.map_id t.items).symm) item hitem

/-- If all notes stay as they are, so do those of the value of a key. -/
theorem map_eq_self_of_get? (h : t.map f = t) {key : String} {value : Tree α}
    (hvalue : t.get? key = some value) : value.map f = value := by
  have hmap := get?_map f t key
  rw [h, hvalue, Option.map_some] at hmap
  exact (Option.some.inj hmap).symm

end Fixed

end PlaybookLint.Tree
