import PlaybookLint.Proofs.Nesting
import PlaybookLint.Rule.Tasks

/-!
# Containers

A task that contains others does nothing itself, and so rules on modules do not look at it. Whether
a task is such a container is asked twice: the rules ask whether something that counts as true
stands under one of the keys for nested tasks, and flattening asks whether a list that is not empty
does. The answers differ where a mapping or a scalar stands under the key: such a task contains
nothing, and yet no rule looks at its module.

## Main definitions

* `Tree.IsExpanded` - a task in whose lists flattening finds items.
* `Tree.HoldsNoList` - a task with a key for nested tasks that counts as true and holds no list.

## Main statements

* `Tree.isExpanded_iff`, `Tree.isContainer_iff` - what stands under the keys of such tasks.
* `Tree.flattenAt_of_not_isExpanded` - a task that is not expanded is found alone.
* `container_iff` - the containers are the expanded tasks and those whose key holds no list.
-/

namespace PlaybookLint

namespace Tree

variable {t : Tree α}

/-- Flattening finds an item in a list under one of the keys for nested tasks. -/
def IsExpanded (t : Tree α) : Prop :=
  ∃ rest item, t.Lists nestedTaskKeys rest item

/-- Something that is no list, but counts as true, stands under one of the keys for nested tasks. -/
def HoldsNoList (t : Tree α) : Prop :=
  ∃ key ∈ nestedTaskKeys, ∃ value ∈ t.get? key, value.isTruthy = true ∧ value.items? = none

/-- **An expanded task** has a list that is not empty under one of the keys. -/
theorem isExpanded_iff :
    t.IsExpanded ↔ ∃ key ∈ nestedTaskKeys, ∃ value ∈ t.get? key, value.items ≠ [] := by
  constructor
  · rintro ⟨_, item, @⟨key, e, i, value, _, hkey, hentry, hitem⟩⟩
    refine ⟨key, hkey, value, ?_, ?_⟩
    · rw [Option.mem_def, get?, lookup?_eq_some_iff.mpr hentry]
      rfl
    · cases value with
      | sequence line note items =>
          rintro rfl
          exact nomatch hitem
      | scalar | mapping => exact nomatch hitem
  · rintro ⟨key, hkey, value, hvalue, hitems⟩
    obtain ⟨⟨e, own⟩, hfound, hown⟩ := Option.map_eq_some_iff.mp hvalue
    obtain rfl : own = value := hown
    cases own with
    | sequence line note items =>
        obtain ⟨item, items, rfl⟩ := List.exists_cons_of_ne_nil hitems
        exact ⟨_, item, .intro (i := 0) hkey (lookup?_eq_some_iff.mp hfound) rfl⟩
    | scalar | mapping => exact absurd rfl hitems

instance : Decidable t.IsExpanded :=
  decidable_of_iff _ isExpanded_iff.symm

/-- What counts as true is a list that is not empty, or no list. -/
theorem isTruthy_iff_items : t.isTruthy = true ↔
    t.items ≠ [] ∨ t.isTruthy = true ∧ t.items? = none := by
  cases t with
  | sequence line note items => simp [isTruthy, Tree.items, Tree.items?]
  | scalar | mapping => simp [Tree.items, Tree.items?]

/-- **A container** is a task that is expanded, or one with a key that holds no list. -/
theorem isContainer_iff : t.isContainer = true ↔ t.IsExpanded ∨ t.HoldsNoList := by
  have htruthy : t.isContainer = true ↔
      ∃ key ∈ nestedTaskKeys, ∃ value ∈ t.get? key, value.isTruthy = true := by
    rw [isContainer, List.any_eq_true]
    refine exists_congr fun key => and_congr_right fun _ => ?_
    cases t.get? key <;> simp
  rw [htruthy, isExpanded_iff, HoldsNoList]
  constructor
  · rintro ⟨key, hkey, value, hvalue, htruthy⟩
    exact (isTruthy_iff_items.mp htruthy).imp (fun h => ⟨key, hkey, value, hvalue, h⟩)
      fun h => ⟨key, hkey, value, hvalue, h⟩
  · rintro (⟨key, hkey, value, hvalue, h⟩ | ⟨key, hkey, value, hvalue, h⟩)
    · exact ⟨key, hkey, value, hvalue, isTruthy_iff_items.mpr (.inl h)⟩
    · exact ⟨key, hkey, value, hvalue, h.1⟩

/-- **A task that is not expanded** is found alone. -/
theorem flattenAt_of_not_isExpanded (h : ¬ t.IsExpanded) (path : TreePath) :
    t.flattenAt path = if t.isTruthy then [⟨path, t⟩] else [] := by
  have hnone : nestedTaskKeys.flatMap (t.tasksUnder path) = [] := by
    rw [List.flatMap_eq_nil_iff]
    intro key hkey
    rw [tasksUnder]
    split
    next => rfl
    next e value hfound =>
      have hvalue : value ∈ t.get? key := by
        rw [Option.mem_def, get?, hfound]
        rfl
      have hempty : value.items = [] := Classical.not_not.mp fun hitems =>
        h (isExpanded_iff.mpr ⟨key, hkey, value, hvalue, hitems⟩)
      rw [hempty]
      rfl
  rw [flattenAt_eq, hnone, List.nil_append]

theorem Lists.isTruthy {keys : List String} {rest : TreePath} {item : Tree α}
    (h : t.Lists keys rest item) : t.isTruthy = true := by
  obtain ⟨-, hentry, -⟩ := h
  have hchild := hentry.child?
  cases t with
  | mapping line note entries =>
      cases entries with
      | nil => exact nomatch hchild
      | cons => rfl
  | scalar | sequence => exact nomatch hchild

/-- **An expanded task** is found with all tasks in the items that it lists. -/
theorem flattenAt_subset_of_lists {rest : TreePath} {item : Tree α}
    (h : t.Lists nestedTaskKeys rest item) (path : TreePath) :
    item.flattenAt (path ++ rest) ⊆ t.flattenAt path := fun _ htask =>
  mem_flattenAt_iff.mpr ⟨h.isTruthy, .inl ⟨rest, item, h, htask⟩⟩

end Tree

/-! ### Exempt tasks -/

open Rule (QualifiedName.onTask LatestPackage.onTask)

/-- A container does nothing of its own, and the rules on modules let it pass. -/
theorem exempt_of_isContainer {isHandler : Bool} {node : Node} {task : Task}
    (htask : Task.ofNode? isHandler node = some task) (h : task.isContainer = true) :
    task.action = ⟨Action.containerName, Action.containerName, []⟩ ∧
      ∀ doc, QualifiedName.onTask doc task = .pass ∧ LatestPackage.onTask doc task = .pass := by
  rw [Task.ofNode?] at htask
  split at htask
  next =>
    cases htask
    have hcontainer : node.isContainer = true := h
    have haction : Action.ofTask node = ⟨Action.containerName, Action.containerName, []⟩ := by
      rw [Action.ofTask, if_pos hcontainer]
    refine ⟨haction, fun doc => ⟨?_, ?_⟩⟩
    · rw [QualifiedName.onTask, h, Bool.or_true, if_pos rfl]
    · -- the name of a container is none of a package manager
      have hlatest : Rule.LatestPackage.installsLatest
          ⟨Action.containerName, Action.containerName, []⟩ = false := by decide
      simp only [LatestPackage.onTask, haction, hlatest]
      rfl
  next => exact nomatch htask

/-- **Which tasks are containers.**  A task is treated as a container if it is expanded, or if one
of its keys for nested tasks holds something that is no list and counts as true. The rules on
modules let every container pass. Those that are expanded contribute the tasks in their lists; of
the other ones nothing is found but themselves. -/
theorem container_iff (line : Nat) (note : Option (List String)) (entries : List (Node × Node))
    (isHandler : Bool) :
    let node : Node := .mapping line note entries
    ∃ task, Task.ofNode? isHandler node = some task ∧
      (task.isContainer = true ↔ node.IsExpanded ∨ node.HoldsNoList) ∧
      (node.IsExpanded ↔ ∃ key ∈ nestedTaskKeys, ∃ value ∈ node.get? key, value.items ≠ []) ∧
      (task.isContainer = true →
        task.action = ⟨Action.containerName, Action.containerName, []⟩ ∧
          ∀ doc, QualifiedName.onTask doc task = .pass ∧ LatestPackage.onTask doc task = .pass) ∧
      (∀ path rest item, node.Lists nestedTaskKeys rest item →
        item.flattenAt (path ++ rest) ⊆ node.flattenAt path) ∧
      (¬ node.IsExpanded → ∀ path, node.flattenAt path ⊆ [⟨path, node⟩]) := by
  intro node
  have htask : Task.ofNode? isHandler node = some ⟨node, .ofTask node, isHandler⟩ := rfl
  refine ⟨_, htask, Tree.isContainer_iff, Tree.isExpanded_iff, exempt_of_isContainer htask,
    fun path _ _ hlists => Tree.flattenAt_subset_of_lists hlists path, fun hnot path => ?_⟩
  rw [Tree.flattenAt_of_not_isExpanded hnot]
  split
  · exact List.Subset.refl _
  · exact List.nil_subset _

/-- A task with a mapping under a key for nested tasks: it is treated as a container, nothing else
is found in it, and the short name of its module is not reported. -/
theorem container_without_list :
    let text := "- name: check\n  ping:\n  rescue:\n    debug:\n      msg: failed\n"
    let doc := ((Document.ofText ⟨"tasks/main.yml"⟩ none text).toOption.map Prod.fst).getD default
    doc.tasks.map (fun task => (task.isContainer, decide task.node.IsExpanded)) = [(true, false)] ∧
      doc.tasks.map (fun task => (Action.ofPlainTask task.node).written) = ["ping"] ∧
      doc.tasks.map (QualifiedName.onTask doc) = [.pass] := by
  decide +kernel

end PlaybookLint
