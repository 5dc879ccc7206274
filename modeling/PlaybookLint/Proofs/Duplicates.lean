import PlaybookLint.Proofs.Lookup
import PlaybookLint.Rule.Tasks

/-!
# Duplicate keys in tasks

Of entries with the same key the last one counts. So nothing should change if all of them are given
the value of the last one. That is true of whatever is looked up by its key, but the module of a
task is searched for from the front: if it is named twice, its arguments are those of its first
entry.

## Main definitions

* `Tree.settled` - a mapping in which all entries with a key have the value of the last one.
* `Tree.unlined` - a tree without its lines.
* `Action.moduleSource?` - the entry from which a task takes its module.

## Main statements

* `Tree.get?_settled` - settling a mapping changes no value of a key.
* `Action.ofTask_settled_of_none`, `Action.ofTask_settled_of_some` - what it does to the action of a
  task.
* `view_settled` - what it does to all that the rules see of a task.
-/

namespace PlaybookLint

namespace Tree

/-! ### Settled mappings -/

/-- The entry with the value of the last one that has its key. -/
def settledEntry (entries : List (Tree α × Tree α)) (e : Tree α × Tree α) : Tree α × Tree α :=
  (e.1, (e.1.string?.bind (lastValue? entries)).getD e.2)

/-- The mapping in which all entries with a key have the value of the last one. -/
def settled : Tree α → Tree α
  | .mapping line note entries => .mapping line note (entries.map (settledEntry entries))
  | t => t

variable {t : Tree α}

@[simp] theorem line_settled : t.settled.line = t.line := by
  cases t <;> rfl

@[simp] theorem entries_settled : t.settled.entries = t.entries.map (settledEntry t.entries) := by
  cases t <;> rfl

/-- The last entry with a key has its value already. -/
theorem lastValue?_settled (entries : List (Tree α × Tree α)) (key : String) :
    lastValue? (entries.map (settledEntry entries)) key = lastValue? entries key := by
  have hfound : lastValue? (entries.map (settledEntry entries)) key =
      (entries.reverse.find? fun e => e.1.string? = some key).map
        fun e => (settledEntry entries e).2 := by
    rw [lastValue?, ← List.map_reverse, List.find?_map, Option.map_map]
    rfl
  rw [hfound]
  cases hlast : entries.reverse.find? fun e => e.1.string? = some key with
  | none => rw [lastValue?, hlast]; rfl
  | some e =>
      have hkey : e.1.string? = some key := by simpa using List.find?_some hlast
      have hvalue : lastValue? entries key = some e.2 := by rw [lastValue?, hlast]; rfl
      rw [Option.map_some, settledEntry, hkey, Option.bind_some, hvalue]
      rfl

/-- A key of an entry has a value. -/
theorem exists_get?_of_mem {e : Tree α × Tree α} (h : e ∈ t.entries) {key : String}
    (hkey : e.1.string? = some key) : ∃ value, t.get? key = some value := by
  have hsome : (t.entries.reverse.find? fun e => e.1.string? = some key).isSome = true :=
    List.find?_isSome.mpr ⟨e, List.mem_reverse.mpr h, by simpa using hkey⟩
  rw [get?_eq_lastValue?, lastValue?]
  exact ⟨_, Option.map_eq_some_iff.mpr ⟨_, (Option.some_get hsome).symm, rfl⟩⟩

/-- **Settling a mapping** changes no value of a key. -/
@[simp] theorem get?_settled (key : String) : t.settled.get? key = t.get? key := by
  rw [get?_eq_lastValue?, get?_eq_lastValue?, entries_settled, lastValue?_settled]

@[simp] theorem isContainer_settled : t.settled.isContainer = t.isContainer := by
  simp [isContainer]

/-! ### Trees without lines -/

mutual

/-- The tree without its lines. -/
def unlined : Tree α → Tree α
  | .scalar _ note value => .scalar 0 note value
  | .sequence _ note items => .sequence 0 note (unlinedItems items)
  | .mapping _ note entries => .mapping 0 note (unlinedEntries entries)

/-- `Tree.unlined` for every tree of a list. -/
def unlinedItems : List (Tree α) → List (Tree α)
  | [] => []
  | t :: ts => unlined t :: unlinedItems ts

/-- `Tree.unlined` for every key and value of a list. -/
def unlinedEntries : List (Tree α × Tree α) → List (Tree α × Tree α)
  | [] => []
  | (k, v) :: es => (unlined k, unlined v) :: unlinedEntries es

end

end Tree

/-! ### Actions of settled tasks -/

namespace Action

/-- Arguments without the lines of their values. -/
def unlinedArgs (args : List (String × Node)) : List (String × Node) :=
  args.map (Prod.map id Tree.unlined)

/-- The module that a key of a task names, if it names any. -/
def moduleOf? (key : Node) : Option String :=
  key.string?.filter fun name => !isTaskKeyword name

/-- The entry has a module for its key. -/
def namesModule (e : Node × Node) : Bool :=
  (moduleOf? e.1).isSome

/-- The entry from which a task takes its module: the first one that names any, unless the task
contains others or says in another way what it does. -/
def moduleSource? (task : Node) : Option (Node × Node) :=
  if task.isContainer || (task.get? "action").isSome || (task.get? "local_action").isSome then none
  else task.entries.find? namesModule

/-- The arguments that stand apart from the module. -/
def extraArgs (task : Node) : List (String × Node) :=
  ((task.get? "args").map argsOfValue).getD []

variable {task : Node}

theorem ofKeyValue?_eq (e : Node × Node) :
    ofKeyValue? e = (moduleOf? e.1).map fun name => ofModule name (argsOfValue e.2) := by
  rw [ofKeyValue?, moduleOf?]
  cases e.1.string? with
  | none => rfl
  | some name => cases hkeyword : isTaskKeyword name <;> simp [hkeyword, Option.filter]

theorem findSome?_ofKeyValue? (entries : List (Node × Node)) :
    entries.findSome? ofKeyValue? = (entries.find? namesModule).bind ofKeyValue? := by
  induction entries with
  | nil => rfl
  | cons e entries ih =>
      rw [List.findSome?_cons, List.find?_cons, namesModule, ofKeyValue?_eq]
      cases hname : moduleOf? e.1 with
      | none => exact ih
      | some name =>
          rw [Option.isSome_some, Option.bind_some, ofKeyValue?_eq, hname]
          rfl

/-- The module of a settled task is named by the same entry, with its last value. -/
theorem find?_namesModule_settled :
    task.settled.entries.find? namesModule =
      (task.entries.find? namesModule).map (Tree.settledEntry task.entries) := by
  rw [Tree.entries_settled, List.find?_map]
  rfl

/-- **A settled task does the same** if it does not take its module from an entry. -/
theorem ofTask_settled_of_none (h : moduleSource? task = none) :
    ofTask task.settled = ofTask task := by
  rw [ofTask, ofTask, Tree.isContainer_settled, Tree.get?_settled]
  cases hcontainer : task.isContainer with
  | true => rfl
  | false =>
      have hplain : ofPlainTask task.settled = ofPlainTask task := by
        rw [ofPlainTask, ofPlainTask, Tree.get?_settled, Tree.get?_settled, Tree.line_settled]
        cases haction : task.get? "action" with
        | some value => rfl
        | none =>
            cases hlocal : task.get? "local_action" with
            | some value => rfl
            | none =>
                rw [moduleSource?, hcontainer, haction, hlocal] at h
                have hnone : task.entries.find? namesModule = none := h
                rw [findSome?_ofKeyValue?, findSome?_ofKeyValue?, find?_namesModule_settled, hnone]
                rfl
      rw [hplain]

/-- **A settled task runs the same module**, with the arguments of the last entry for it instead of
those of the first one. -/
theorem ofTask_settled_of_some {e : Node × Node} (h : moduleSource? task = some e) :
    ∃ key last, e.1.string? = some key ∧ task.get? key = some last ∧
      ofTask task = ofModule key (argsOfValue e.2 ++ extraArgs task) ∧
      ofTask task.settled = ofModule key (argsOfValue last ++ extraArgs task) := by
  rw [moduleSource?] at h
  split at h
  next => exact nomatch h
  next hplain =>
    simp only [Bool.or_eq_true, not_or, Bool.not_eq_true, Option.isSome_eq_false_iff,
      Option.isNone_iff_eq_none] at hplain
    obtain ⟨⟨hcontainer, haction⟩, hlocal⟩ := hplain
    have hnames : namesModule e = true := List.find?_some h
    obtain ⟨name, hname⟩ := Option.isSome_iff_exists.mp hnames
    have hkey : e.1.string? = some name := (Option.filter_eq_some_iff.mp hname).1
    obtain ⟨last, hlast⟩ := Tree.exists_get?_of_mem (List.mem_of_find?_eq_some h) hkey
    have hsettled : task.settled.entries.find? namesModule = some (e.1, last) := by
      rw [find?_namesModule_settled, h, Option.map_some, Tree.settledEntry, hkey, Option.bind_some,
        ← Tree.get?_eq_lastValue?, hlast]
      rfl
    -- neither task contains others or has an `action`, so that both go by the entry found
    have hplain : ∀ {own : Node} {value : Node}, own.get? "action" = none →
        own.get? "local_action" = none → own.entries.find? namesModule = some (e.1, value) →
        ofPlainTask own = ofModule name (argsOfValue value) := by
      intro own value haction hlocal hentry
      rw [ofPlainTask, haction, hlocal, findSome?_ofKeyValue?, hentry, Option.bind_some,
        ofKeyValue?_eq, hname]
      rfl
    refine ⟨name, last, hkey, hlast, ?_, ?_⟩
    · rw [ofTask, hcontainer, if_neg Bool.false_ne_true, hplain haction hlocal h]
      rfl
    · rw [ofTask, Tree.isContainer_settled, hcontainer, if_neg Bool.false_ne_true,
        hplain (by rwa [Tree.get?_settled]) (by rwa [Tree.get?_settled]) hsettled,
        Tree.get?_settled]
      rfl

/-- The first entry for the module of a task and the last one give it the same arguments. -/
def SameArgs (task : Node) : Prop :=
  ∀ e ∈ moduleSource? task, ∀ last ∈ e.1.string?.bind task.get?,
    unlinedArgs (argsOfValue last) = unlinedArgs (argsOfValue e.2)

/-- **Settling a task** keeps its module, and it keeps the arguments exactly if the first and the
last entry for the module give the same ones. -/
theorem ofTask_settled (task : Node) :
    (ofTask task.settled).module = (ofTask task).module ∧
      (ofTask task.settled).written = (ofTask task).written ∧
      (unlinedArgs (ofTask task.settled).args = unlinedArgs (ofTask task).args ↔
        SameArgs task) := by
  rw [SameArgs]
  cases hentry : moduleSource? task with
  | none =>
      rw [ofTask_settled_of_none hentry]
      exact ⟨rfl, rfl, iff_of_true rfl nofun⟩
  | some e =>
      obtain ⟨name, last, hkey, hlast, htask, hsettled⟩ := ofTask_settled_of_some hentry
      rw [htask, hsettled]
      refine ⟨rfl, rfl, ?_⟩
      show unlinedArgs (_ ++ _) = unlinedArgs (_ ++ _) ↔ _
      have hboth : (∀ own ∈ some e, ∀ value ∈ own.1.string?.bind task.get?,
          unlinedArgs (argsOfValue value) = unlinedArgs (argsOfValue own.2)) ↔
            unlinedArgs (argsOfValue last) = unlinedArgs (argsOfValue e.2) := by
        simp [hkey, hlast]
      rw [hboth, unlinedArgs, unlinedArgs, List.map_append, List.map_append,
        List.append_cancel_right_eq]
      rfl

end Action

/-- **What settling changes of a task.**  Give all entries of a task with the same key the value of
the last one. Then the values of all keys stay the same, and with them the name of the task, its
tags and whether it contains others; and so does its module. The arguments stay the same, up to
lines, exactly if the first entry for the module gives the same arguments as the last one. -/
theorem view_settled (line : Nat) (note : Option (List String)) (entries : List (Node × Node))
    (isHandler : Bool) :
    let node : Node := .mapping line note entries
    ∃ task settled, Task.ofNode? isHandler node = some task ∧
      Task.ofNode? isHandler node.settled = some settled ∧
      (∀ key, settled.get? key = task.get? key) ∧ settled.name? = task.name? ∧
      settled.tags = task.tags ∧ settled.isContainer = task.isContainer ∧
      settled.action.module = task.action.module ∧ settled.action.written = task.action.written ∧
      (Action.unlinedArgs settled.action.args = Action.unlinedArgs task.action.args ↔
        Action.SameArgs node) := by
  intro node
  have hget : ∀ key, node.settled.get? key = node.get? key := Tree.get?_settled
  have hcontainer : node.settled.isContainer = node.isContainer := Tree.isContainer_settled
  refine ⟨⟨node, .ofTask node, isHandler⟩, ⟨node.settled, .ofTask node.settled, isHandler⟩, rfl,
    rfl, hget, ?_, ?_, hcontainer, Action.ofTask_settled node⟩
  · simp only [Task.name?, Task.get?, hget]
  · simp only [Task.tags, Task.get?, hget]

/-- A task that names its module twice: the arguments are those of the first entry, which asks for
no latest version, though the last one does. -/
theorem settled_asks_for_latest :
    let text := "- name: install\n  ansible.builtin.yum: name=httpd state=present\n" ++
      "  ansible.builtin.yum: name=httpd state=latest\n"
    let doc := ((Document.ofText ⟨"tasks/main.yml"⟩ none text).toOption.map Prod.fst).getD default
    let judged (node : Node) := (Task.ofNode? false node).map (Rule.LatestPackage.onTask doc)
    doc.tasks.map (fun task => (judged task.node, judged task.node.settled)) =
      [(some .pass, some .violation)] := by
  decide +kernel

end PlaybookLint
