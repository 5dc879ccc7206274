import PlaybookLint.Proofs.Lookup
import PlaybookLint.Proofs.Paths
import PlaybookLint.Task.Flatten

/-!
# Nested tasks

A task holds other tasks in the lists under some of its keys. Flattening a task goes into these
lists, key by key and item by item, and puts the task behind what it has found there. Whatever is
said of the tasks in a node is said by induction on this nesting.

## Main definitions

* `Tree.Lists` - an item of the list under one of some keys, with the path to it.
* `Tree.tasksUnder` - the tasks that are found under a key.

## Main statements

* `Tree.flattenAt_eq` - the tasks in a node are those under its keys, and then the node itself.
* `Tree.mem_flattenAt_iff` - the same for membership.
* `Tree.nesting_induction` - induction from nested tasks to the tasks that hold them.
-/

namespace PlaybookLint

namespace Tree

/-! ### Listed items -/

/-- A node lists an item under one of some keys: the last entry with the key holds a sequence with
the item in it. The path leads from the node to the item. -/
inductive Lists (keys : List String) (t : Tree α) : TreePath → Tree α → Prop
  | intro {key : String} {e i : Nat} {value item : Tree α} (mem : key ∈ keys)
      (entry : t.LastEntry key e value) (child? : value.child? (.item i) = some item) :
      Lists keys t [.entry e, .item i] item

theorem Lists.at? {keys : List String} {t item : Tree α} {rest : TreePath}
    (h : t.Lists keys rest item) : t.at? rest = some item := by
  obtain ⟨-, hentry, hitem⟩ := h
  rw [at?_cons, hentry.child?, Option.bind_some, at?_cons, hitem, Option.bind_some, at?_nil]

theorem sizeOf_lt_of_child? {t child : Tree α} {step : Step} (h : t.child? step = some child) :
    sizeOf child < sizeOf t := by
  cases t with
  | scalar => exact nomatch h
  | sequence line note items =>
      cases step with
      | item i =>
          have hmem := List.sizeOf_lt_of_mem (List.mem_of_getElem? h)
          simp only [sequence.sizeOf_spec]
          omega
      | entry => exact nomatch h
  | mapping line note entries =>
      cases step with
      | item => exact nomatch h
      | entry i =>
          obtain ⟨⟨k, v⟩, hentry, rfl⟩ := Option.map_eq_some_iff.mp h
          have hmem := List.sizeOf_lt_of_mem (List.mem_of_getElem? hentry)
          simp only [Prod.mk.sizeOf_spec] at hmem
          simp only [mapping.sizeOf_spec]
          omega

/-- **Induction over nesting.**  What holds of a node if it holds of all tasks nested directly in
it, holds of every node. -/
theorem nesting_induction {motive : Tree α → Prop}
    (nested : ∀ t, (∀ rest item, t.Lists nestedTaskKeys rest item → motive item) → motive t)
    (t : Tree α) : motive t := by
  refine nested t fun rest item hlists => ?_
  have hlt : sizeOf item < sizeOf t := by
    obtain ⟨-, hentry, hitem⟩ := hlists
    exact Nat.lt_trans (sizeOf_lt_of_child? hitem) (sizeOf_lt_of_child? hentry.child?)
  exact nesting_induction nested item
termination_by sizeOf t

/-! ### The tasks under a key -/

/-- The tasks in the list under a key of a node at a path; none if there is no such list. -/
def tasksUnder (path : TreePath) (t : Tree α) (key : String) : List (FlatTask α) :=
  match t.lookup? key with
  | none => []
  | some (i, value) => flattenTasks (indexItems (path ++ [.entry i]) value.items)

theorem flattenItems_eq (path : TreePath) (index : Nat) (items : List (Tree α)) :
    flattenItems path index items =
      (items.zipIdx index).flatMap fun (item, i) => item.flattenAt (path ++ [.item i]) := by
  induction items generalizing index with
  | nil => rw [flattenItems]; rfl
  | cons item items ih => rw [flattenItems, ih, List.zipIdx_cons, List.flatMap_cons]

theorem flattenList_eq (path : TreePath) (t : Tree α) :
    t.flattenList path = flattenTasks (indexItems path t.items) := by
  cases t with
  | sequence line note items =>
      rw [flattenList, flattenItems_eq, flattenTasks]
      show _ = (indexItems path items).flatMap _
      rw [indexItems, List.flatMap_map]
  | scalar | mapping =>
      rw [flattenList]
      · rfl
      · nofun

theorem flattenKey_eq (path : TreePath) (key : String) (index : Nat)
    (entries : List (Tree α × Tree α)) :
    flattenKey path key index entries =
      (lookupFrom key index entries).map fun (i, value) =>
        flattenTasks (indexItems (path ++ [Step.entry i]) value.items) := by
  induction entries generalizing index with
  | nil => rw [flattenKey, lookupFrom]; rfl
  | cons e entries ih =>
      obtain ⟨k, v⟩ := e
      rw [flattenKey, lookupFrom, ih, flattenList_eq]
      cases lookupFrom key (index + 1) entries with
      | some found => rfl
      | none =>
          dsimp only [Option.map_none]
          split <;> rfl

/-- **One level of nesting.**  The tasks in a node that counts as true are those under its keys, key
by key, and after them the node itself. -/
theorem flattenAt_eq (path : TreePath) (t : Tree α) :
    t.flattenAt path =
      if t.isTruthy then nestedTaskKeys.flatMap (t.tasksUnder path) ++ [⟨path, t⟩] else [] := by
  cases t with
  | scalar line note value =>
      rw [flattenAt]
      rfl
  | sequence line note items =>
      rw [flattenAt]
      cases items <;> rfl
  | mapping line note entries =>
      have hkey : ∀ key, (flattenKey path key 0 entries).getD [] =
          (Tree.mapping line note entries).tasksUnder path key := by
        intro key
        rw [flattenKey_eq, tasksUnder]
        show ((lookupFrom key 0 entries).map _).getD [] =
          match lookupFrom key 0 entries with
          | none => []
          | some (i, value) => flattenTasks (indexItems (path ++ [Step.entry i]) value.items)
        cases lookupFrom key 0 entries <;> rfl
      rw [flattenAt, hkey, hkey, hkey]
      cases entries with
      | nil => rfl
      | cons e entries => simp [nestedTaskKeys, isTruthy]

/-! ### Membership -/

theorem mem_indexItems_iff {path : TreePath} {t : Tree α} {task : FlatTask α} :
    task ∈ indexItems path t.items ↔
      ∃ i, task.path = path ++ [.item i] ∧ t.child? (.item i) = some task.node := by
  obtain ⟨p, node⟩ := task
  cases t with
  | sequence line note items =>
      show _ ∈ indexItems path items ↔ ∃ i, p = path ++ [Step.item i] ∧ items[i]? = some node
      simp only [indexItems, List.mem_map, Prod.exists, List.mem_zipIdx_iff_getElem?,
        FlatTask.mk.injEq]
      exact ⟨fun ⟨item, i, hitem, hpath, hnode⟩ => ⟨i, hpath.symm, hnode ▸ hitem⟩,
        fun ⟨i, hpath, hitem⟩ => ⟨node, i, hitem, hpath.symm, rfl⟩⟩
  | scalar | mapping =>
      constructor
      · exact nofun
      · rintro ⟨i, -, hchild⟩
        exact nomatch hchild

theorem mem_flatMap_tasksUnder_iff {keys : List String} {path : TreePath} {t : Tree α}
    {task : FlatTask α} :
    task ∈ keys.flatMap (t.tasksUnder path) ↔
      ∃ rest item, t.Lists keys rest item ∧ task ∈ item.flattenAt (path ++ rest) := by
  rw [List.mem_flatMap]
  constructor
  · rintro ⟨key, hkey, hmem⟩
    rw [tasksUnder] at hmem
    split at hmem
    next => exact nomatch hmem
    next e value hfound =>
      obtain ⟨block, hblock, htask⟩ := List.mem_flatMap.mp hmem
      obtain ⟨i, hpath, hitem⟩ := mem_indexItems_iff.mp hblock
      rw [hpath, List.append_assoc] at htask
      exact ⟨_, block.node, .intro hkey (lookup?_eq_some_iff.mp hfound) hitem, htask⟩
  · rintro ⟨_, item, @⟨key, e, i, value, _, hkey, hentry, hitem⟩, htask⟩
    refine ⟨key, hkey, ?_⟩
    rw [tasksUnder, lookup?_eq_some_iff.mpr hentry]
    refine List.mem_flatMap.mpr ⟨⟨path ++ [.entry e] ++ [.item i], item⟩, ?_, ?_⟩
    · exact mem_indexItems_iff.mpr ⟨i, rfl, hitem⟩
    · rwa [List.append_assoc]

/-- **The tasks in a node** that counts as true are the node and the tasks in the items that it
lists. -/
theorem mem_flattenAt_iff {path : TreePath} {t : Tree α} {task : FlatTask α} :
    task ∈ t.flattenAt path ↔ t.isTruthy = true ∧
      ((∃ rest item, t.Lists nestedTaskKeys rest item ∧ task ∈ item.flattenAt (path ++ rest)) ∨
        task = ⟨path, t⟩) := by
  rw [flattenAt_eq]
  split
  next htruthy =>
    rw [List.mem_append, mem_flatMap_tasksUnder_iff, List.mem_singleton, and_iff_right htruthy]
  next hfalsy => exact iff_of_false List.not_mem_nil fun h => hfalsy h.1

/-- With a task, the tasks that it lists are found. -/
theorem mem_flattenAt_of_lists (t : Tree α) : ∀ path, ∀ task ∈ t.flattenAt path, ∀ rest item,
    task.node.Lists nestedTaskKeys rest item → item.isTruthy = true →
      ⟨task.path ++ rest, item⟩ ∈ t.flattenAt path := by
  induction t using nesting_induction with
  | nested t ih =>
      intro path task htask rest item hlists htruthy
      obtain ⟨ht, ⟨between, inner, hinner, hmem⟩ | rfl⟩ := mem_flattenAt_iff.mp htask
      · refine mem_flattenAt_iff.mpr ⟨ht, .inl ⟨between, inner, hinner, ?_⟩⟩
        exact ih between inner hinner _ task hmem rest item hlists htruthy
      · have hself : ⟨path ++ rest, item⟩ ∈ item.flattenAt (path ++ rest) :=
          mem_flattenAt_iff.mpr ⟨htruthy, .inr rfl⟩
        exact mem_flattenAt_iff.mpr ⟨ht, .inl ⟨rest, item, hlists, hself⟩⟩

end Tree

end PlaybookLint
