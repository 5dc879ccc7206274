import Mathlib.Data.List.Nodup
import PlaybookLint.Proofs.Flattening

/-!
# The order of the tasks

The tasks of a file are what its task lists hold and what is nested in them, and each of them is
found once. A task that holds others comes after them; tasks beside one another come in the order in
which their plays, their sections, the keys that they are nested under and their lists have them.

## Main definitions

* `Tree.ListedTask` - the tasks of a file, by the lists that they stand in.
* `Tree.Precedes` - the order in which tasks are visited, by their paths.

## Main statements

* `Tree.mem_flattenTasks_iff` - flattening finds the listed tasks.
* `Tree.pairwise_flattenTasks` - it finds them in the order in which they are visited.
* `Tree.nodup_path_flattenTasks` - it finds them at different paths.
* `Tree.flattenTasks_spec` - all of this together, with where the paths lead.
-/

namespace PlaybookLint

/-- Of two paths with a common continuation, neither leads further if they are equally long. -/
theorem eq_of_prefix_of_length_eq {p p' q : List α} (hp : p <+: q) (hp' : p' <+: q)
    (hlength : p.length = p'.length) : p = p' :=
  (List.prefix_of_prefix_length_le hp hp' (Nat.le_of_eq hlength)).eq_of_length hlength

/-- Paths that part at a step do not meet again. -/
theorem step_unique {path q : TreePath} {step step' : Step} (h : path ++ [step] <+: q)
    (h' : path ++ [step'] <+: q) : step = step' := by
  have hsame : path ++ [step] = path ++ [step'] := eq_of_prefix_of_length_eq h h' (by simp)
  simpa using hsame

/-- What is common to two paths beyond a place at which they have not ended, is one step there. -/
theorem step_eq_of_common {p q path common : TreePath} {a b : Step} (hp : path ++ [a] <+: p)
    (hq : path ++ [b] <+: q) (hcommon : common <+: p) (hcommon' : common <+: q)
    (hlt : path.length < common.length) : a = b := by
  have hlength : ∀ step : Step, (path ++ [step]).length ≤ common.length := fun step => by
    rw [List.length_append, List.length_singleton]
    exact hlt
  exact step_unique (List.prefix_of_prefix_length_le hp hcommon (hlength a))
    (List.prefix_of_prefix_length_le hq hcommon' (hlength b))

/-- Two paths part at one place only. -/
theorem parting_unique {p q path path' : TreePath} {a a' b b' : Step}
    (hp : path ++ [a] <+: p) (hq : path ++ [b] <+: q) (hp' : path' ++ [a'] <+: p)
    (hq' : path' ++ [b'] <+: q) (hne : a ≠ b) (hne' : a' ≠ b') : path = path' := by
  have hshort : ∀ {r : TreePath} {step : Step} {path : TreePath}, path ++ [step] <+: r →
      path <+: r := (List.prefix_append _ _).trans
  rcases Nat.lt_trichotomy path.length path'.length with hlt | heq | hgt
  · exact absurd (step_eq_of_common hp hq (hshort hp') (hshort hq') hlt) hne
  · exact eq_of_prefix_of_length_eq (hshort hp) (hshort hp') heq
  · exact absurd (step_eq_of_common hp' hq' (hshort hp) (hshort hq) hgt) hne'

theorem FlatTask.Leads.isPrefix {path : TreePath} {t : Tree α} {task : FlatTask α}
    (h : task.Leads path t) : path <+: task.path := by
  obtain ⟨rest, hpath, -⟩ := h
  exact ⟨rest, hpath.symm⟩

namespace Tree

/-! ### The listed tasks -/

/-- The tasks of a file of some kind, each with its path: the items of its task lists that count as
true, and those of the lists nested in such an item. -/
inductive ListedTask (kind : FileKind) (root : Tree α) : TreePath → Tree α → Prop
  | file {i : Nat} {item : Tree α} (flat : kind = .tasks ∨ kind = .handlers)
      (child? : root.child? (.item i) = some item) (truthy : item.isTruthy = true) :
      ListedTask kind root [.item i] item
  | play {p : Nat} {play item : Tree α} {rest : TreePath} (playbook : kind = .playbook)
      (child? : root.child? (.item p) = some play) (lists : play.Lists playSections rest item)
      (truthy : item.isTruthy = true) : ListedTask kind root (.item p :: rest) item
  | nested {path rest : TreePath} {task item : Tree α} (holder : ListedTask kind root path task)
      (lists : task.Lists nestedTaskKeys rest item) (truthy : item.isTruthy = true) :
      ListedTask kind root (path ++ rest) item

/-- With a node, the tasks in it are listed. -/
theorem listedTask_of_mem_flattenAt {kind : FileKind} {root t : Tree α} {path : TreePath}
    (hself : t.isTruthy = true → root.ListedTask kind path t) :
    ∀ task ∈ t.flattenAt path, root.ListedTask kind task.path task.node := by
  induction t using nesting_induction generalizing path with
  | nested t ih =>
      intro task htask
      obtain ⟨htruthy, ⟨rest, item, hlists, hmem⟩ | rfl⟩ := mem_flattenAt_iff.mp htask
      · exact ih rest item hlists (.nested (hself htruthy) hlists) task hmem
      · exact hself htruthy

/-- The tasks of a playbook are those of its plays. -/
theorem flattenTasks_playbook {root : Tree α} {blocks : List (FlatTask α)}
    (h : root.taskBlocks .playbook = some blocks) :
    flattenTasks blocks = (indexItems [] root.items).flatMap fun play =>
      playSections.flatMap (play.node.tasksUnder play.path) := by
  obtain ⟨plays, hplays, h⟩ := Option.bind_eq_some_iff.mp h
  obtain ⟨parts, hparts, rfl⟩ := Option.map_eq_some_iff.mp h
  rw [items, hplays, Option.getD_some, flattenTasks_flatten, List.flatMap_def, List.flatMap_def]
  exact congrArg List.flatten
    (map_eq_map_of_mapM hparts fun _ _ hblocks => flattenTasks_playBlocks hblocks).symm

/-- The blocks of a file without plays are its items. -/
theorem taskBlocks_of_flat {kind : FileKind} {root : Tree α} {blocks : List (FlatTask α)}
    (hkind : kind = .tasks ∨ kind = .handlers) (h : root.taskBlocks kind = some blocks) :
    blocks = indexItems [] root.items := by
  have hitems : root.items?.map (indexItems []) = some blocks := by
    rcases hkind with rfl | rfl <;> exact h
  obtain ⟨items, hroot, rfl⟩ := Option.map_eq_some_iff.mp hitems
  rw [Tree.items, hroot, Option.getD_some]

/-- A kind of file with task lists. -/
theorem kind_of_taskBlocks {kind : FileKind} {root : Tree α} {blocks : List (FlatTask α)}
    (h : root.taskBlocks kind = some blocks) :
    (kind = .tasks ∨ kind = .handlers) ∨ kind = .playbook := by
  cases kind with
  | tasks => exact .inl (.inl rfl)
  | handlers => exact .inl (.inr rfl)
  | playbook => exact .inr rfl
  | _ => exact nomatch h

section Files

variable {kind : FileKind} {root : Tree α} {blocks : List (FlatTask α)}

theorem listedTask_of_mem_flattenTasks (h : root.taskBlocks kind = some blocks) :
    ∀ task ∈ flattenTasks blocks, root.ListedTask kind task.path task.node := by
  intro task htask
  rcases kind_of_taskBlocks h with hkind | rfl
  · obtain ⟨block, hblock, hmem⟩ := List.mem_flatMap.mp htask
    rw [taskBlocks_of_flat hkind h] at hblock
    obtain ⟨i, hpath, hitem⟩ := mem_indexItems_iff.mp hblock
    refine listedTask_of_mem_flattenAt (fun htruthy => ?_) task hmem
    rw [hpath]
    exact .file hkind hitem htruthy
  · rw [flattenTasks_playbook h] at htask
    obtain ⟨play, hplay, hmem⟩ := List.mem_flatMap.mp htask
    obtain ⟨p, hpath, hchild⟩ := mem_indexItems_iff.mp hplay
    obtain ⟨rest, item, hlists, hmem⟩ := mem_flatMap_tasksUnder_iff.mp hmem
    refine listedTask_of_mem_flattenAt (fun htruthy => ?_) task hmem
    rw [hpath]
    exact .play rfl hchild hlists htruthy

/-- The tasks that are found are closed under nesting. -/
theorem mem_flattenTasks_of_lists {task : FlatTask α} (htask : task ∈ flattenTasks blocks)
    {rest : TreePath} {item : Tree α} (hlists : task.node.Lists nestedTaskKeys rest item)
    (htruthy : item.isTruthy = true) : ⟨task.path ++ rest, item⟩ ∈ flattenTasks blocks := by
  obtain ⟨block, hblock, hmem⟩ := List.mem_flatMap.mp htask
  exact List.mem_flatMap.mpr
    ⟨block, hblock, mem_flattenAt_of_lists block.node block.path task hmem rest item hlists htruthy⟩

theorem mem_flattenTasks_of_listedTask (h : root.taskBlocks kind = some blocks) {path : TreePath}
    {node : Tree α} (hlisted : root.ListedTask kind path node) :
    ⟨path, node⟩ ∈ flattenTasks blocks := by
  induction hlisted with
  | @file i item hkind hchild htruthy =>
      rw [taskBlocks_of_flat hkind h]
      exact List.mem_flatMap.mpr
        ⟨⟨[.item i], item⟩, mem_indexItems_iff.mpr ⟨i, rfl, hchild⟩,
          mem_flattenAt_iff.mpr ⟨htruthy, .inr rfl⟩⟩
  | @play p play item rest hkind hchild hlists htruthy =>
      subst hkind
      rw [flattenTasks_playbook h]
      refine List.mem_flatMap.mpr
        ⟨⟨[.item p], play⟩, mem_indexItems_iff.mpr ⟨p, rfl, hchild⟩, ?_⟩
      exact mem_flatMap_tasksUnder_iff.mpr
        ⟨rest, item, hlists, mem_flattenAt_iff.mpr ⟨htruthy, .inr rfl⟩⟩
  | nested _ hlists htruthy ih => exact mem_flattenTasks_of_lists ih hlists htruthy

/-- **Which tasks are found.**  Flattening the task lists of a file finds the tasks that are listed
in it, and nothing else. -/
theorem mem_flattenTasks_iff (h : root.taskBlocks kind = some blocks) {path : TreePath}
    {node : Tree α} : ⟨path, node⟩ ∈ flattenTasks blocks ↔ root.ListedTask kind path node :=
  ⟨fun hmem => listedTask_of_mem_flattenTasks h _ hmem, mem_flattenTasks_of_listedTask h⟩

end Files

/-! ### The order of paths -/

/-- A key of a play or of a task whose list is visited before the one under another key. -/
def VisitedBefore (key key' : String) : Prop :=
  List.Sublist [key, key'] playSections ∨ List.Sublist [key, key'] nestedTaskKeys

theorem VisitedBefore.asymm {key key' : String} (h : VisitedBefore key key') :
    ¬ VisitedBefore key' key := by
  have hordered : (playSections ++ nestedTaskKeys).Pairwise fun a b =>
      (playSections ++ nestedTaskKeys).idxOf a < (playSections ++ nestedTaskKeys).idxOf b := by
    decide
  have hlt : ∀ {a b : String}, VisitedBefore a b →
      (playSections ++ nestedTaskKeys).idxOf a < (playSections ++ nestedTaskKeys).idxOf b := by
    rintro a b (hab | hab)
    · exact List.pairwise_iff_forall_sublist.mp hordered
        (hab.trans (List.sublist_append_left _ _))
    · exact List.pairwise_iff_forall_sublist.mp hordered
        (hab.trans (List.sublist_append_right _ _))
  exact fun h' => Nat.lt_asymm (hlt h) (hlt h')

/-- Of two steps from a node, one is taken before the other: to an item of smaller index, or to an
entry whose key is visited before. -/
inductive StepBefore (t : Tree α) : Step → Step → Prop
  | item {i j : Nat} (lt : i < j) : StepBefore t (.item i) (.item j)
  | entry {e e' : Nat} {key key' : String} (hasKey : HasKey t.entries e key)
      (hasKey' : HasKey t.entries e' key') (before : VisitedBefore key key') :
      StepBefore t (.entry e) (.entry e')

theorem StepBefore.asymm {t : Tree α} {step step' : Step} (h : t.StepBefore step step') :
    ¬ t.StepBefore step' step := by
  intro h'
  cases h with
  | item hlt =>
      cases h' with
      | item hlt' => exact Nat.lt_asymm hlt hlt'
  | entry hkey hkey' hbefore =>
      cases h' with
      | entry hown' hown hafter =>
          rw [hkey.unique hown, hkey'.unique hown'] at hbefore
          exact hbefore.asymm hafter

theorem StepBefore.ne {t : Tree α} {step step' : Step} (h : t.StepBefore step step') :
    step ≠ step' := by
  rintro rfl
  exact h.asymm h

/-- The order in which the nodes of a tree are visited, as an order of their paths: what is inside a
node comes before it, and nodes in different parts of a third come as these parts do. -/
inductive Precedes (root : Tree α) (p q : TreePath) : Prop
  | inside {step : Step} (below : q ++ [step] <+: p)
  | apart {path : TreePath} {node : Tree α} {step step' : Step} (at? : root.at? path = some node)
      (before : node.StepBefore step step') (first : path ++ [step] <+: p)
      (second : path ++ [step'] <+: q)

variable {root : Tree α}

theorem Precedes.of_isPrefix {p q : TreePath} (hwithin : q <+: p) (hne : p ≠ q) :
    root.Precedes p q := by
  obtain ⟨rest, rfl⟩ := hwithin
  cases rest with
  | nil => exact absurd (List.append_nil q) hne
  | cons step rest =>
      have hbelow : q ++ [step] <+: q ++ step :: rest := ⟨rest, by simp⟩
      exact .inside hbelow

/-- A node comes before none of the nodes inside it, and not before itself. -/
theorem Precedes.not_isPrefix {p q : TreePath} (h : root.Precedes p q) : ¬ p <+: q := by
  intro hprefix
  cases h with
  | inside hbelow =>
      have hlength := (hbelow.trans hprefix).length_le
      rw [List.length_append, List.length_singleton] at hlength
      omega
  | apart _ hbefore hfirst hsecond =>
      exact hbefore.ne (step_unique (hfirst.trans hprefix) hsecond)

theorem Precedes.asymm {p q : TreePath} (h : root.Precedes p q) : ¬ root.Precedes q p := by
  intro h'
  cases h with
  | inside hbelow => exact h'.not_isPrefix ((List.prefix_append _ _).trans hbelow)
  | apart hat hbefore hfirst hsecond =>
      cases h' with
      | inside hbelow =>
          have h : root.Precedes p q := .apart hat hbefore hfirst hsecond
          exact h.not_isPrefix ((List.prefix_append _ _).trans hbelow)
      | apart hat' hbefore' hfirst' hsecond' =>
          -- both times the paths part at the same node
          obtain rfl := parting_unique hfirst hsecond hsecond' hfirst' hbefore.ne hbefore'.ne.symm
          obtain rfl := step_unique hfirst hsecond'
          obtain rfl := step_unique hsecond hfirst'
          rw [hat] at hat'
          cases hat'
          exact hbefore.asymm hbefore'

/-! ### The order of tasks -/

/-- A task is visited before another one. -/
def TaskBefore (root : Tree α) (a b : FlatTask α) : Prop :=
  root.Precedes a.path b.path

theorem isPrefix_of_mem_flattenAt {path : TreePath} {t : Tree α} :
    ∀ task ∈ t.flattenAt path, path <+: task.path :=
  fun task htask => (leads_of_mem_flattenAt path t task htask).isPrefix

/-- The tasks under a key stand in an entry with the key. -/
theorem hasKey_of_mem_tasksUnder {path : TreePath} {t : Tree α} {key : String} :
    ∀ task ∈ t.tasksUnder path key,
      ∃ e, HasKey t.entries e key ∧ path ++ [.entry e] <+: task.path := by
  intro task htask
  have hmem : task ∈ [key].flatMap (t.tasksUnder path) := by simpa using htask
  obtain ⟨_, item, @⟨own, e, i, _, _, hkey, hentry, _⟩, hitem⟩ := mem_flatMap_tasksUnder_iff.mp hmem
  obtain rfl := List.mem_singleton.mp hkey
  refine ⟨e, hentry.hasKey, ?_⟩
  have hprefix : path ++ [Step.entry e] <+: path ++ [.entry e, .item i] := ⟨[.item i], by simp⟩
  exact hprefix.trans (isPrefix_of_mem_flattenAt task hitem)

/-- What is found item by item is in order if it is in each item. -/
theorem pairwise_flatMap_indexItems {path : TreePath} {t : Tree α} (hat : root.at? path = some t)
    {found : FlatTask α → List (FlatTask α)}
    (hbelow : ∀ block, ∀ task ∈ found block, block.path <+: task.path)
    (hinner : ∀ block ∈ indexItems path t.items, (found block).Pairwise root.TaskBefore) :
    ((indexItems path t.items).flatMap found).Pairwise root.TaskBefore := by
  rw [List.pairwise_flatMap]
  refine ⟨hinner, List.pairwise_iff_getElem.mpr fun i j hi hj hlt a ha b hb => ?_⟩
  have hfirst := hbelow _ a ha
  have hsecond := hbelow _ b hb
  simp only [indexItems, List.getElem_map, List.getElem_zipIdx, Nat.zero_add] at hfirst hsecond
  exact .apart hat (.item hlt) hfirst hsecond

/-- What is found key by key is in order if it is in each item. -/
theorem pairwise_flatMap_tasksUnder {path : TreePath} {t : Tree α} (hat : root.at? path = some t)
    {keys : List String} (hkeys : ∀ {key key'}, List.Sublist [key, key'] keys →
      VisitedBefore key key')
    (hinner : ∀ rest item, t.Lists keys rest item →
      (item.flattenAt (path ++ rest)).Pairwise root.TaskBefore) :
    (keys.flatMap (t.tasksUnder path)).Pairwise root.TaskBefore := by
  rw [List.pairwise_flatMap]
  constructor
  · intro key hkey
    rw [tasksUnder]
    split
    next => exact .nil
    next e value hfound =>
      have hentry := lookup?_eq_some_iff.mp hfound
      have hvalue : root.at? (path ++ [.entry e]) = some value := by
        rw [at?_append, hat, Option.bind_some, at?_cons, hentry.child?, Option.bind_some, at?_nil]
      refine pairwise_flatMap_indexItems hvalue (fun _ => isPrefix_of_mem_flattenAt) ?_
      intro block hblock
      obtain ⟨i, hpath, hitem⟩ := mem_indexItems_iff.mp hblock
      rw [hpath, List.append_assoc]
      exact hinner _ block.node (.intro hkey hentry hitem)
  · refine List.pairwise_iff_forall_sublist.mpr fun hsublist a ha b hb => ?_
    obtain ⟨e, hkey, hfirst⟩ := hasKey_of_mem_tasksUnder a ha
    obtain ⟨e', hkey', hsecond⟩ := hasKey_of_mem_tasksUnder b hb
    exact .apart hat (.entry hkey hkey' (hkeys hsublist)) hfirst hsecond

/-- **The tasks in a node** are found in the order in which they are visited. -/
theorem pairwise_flattenAt {path : TreePath} {t : Tree α} (hat : root.at? path = some t) :
    (t.flattenAt path).Pairwise root.TaskBefore := by
  induction t using nesting_induction generalizing path with
  | nested t ih =>
      rw [flattenAt_eq]
      split
      next =>
        refine List.pairwise_append.mpr ⟨?_, List.pairwise_singleton _ _, ?_⟩
        · refine pairwise_flatMap_tasksUnder hat .inr fun rest item hlists => ?_
          refine ih rest item hlists ?_
          rw [at?_append, hat, Option.bind_some, hlists.at?]
        · intro a ha b hb
          obtain rfl := List.mem_singleton.mp hb
          obtain ⟨key, -, ha⟩ := List.mem_flatMap.mp ha
          obtain ⟨e, -, hbelow⟩ := hasKey_of_mem_tasksUnder a ha
          exact .inside hbelow
      next => exact .nil

section Files

variable {kind : FileKind} {blocks : List (FlatTask α)}

/-- **The tasks of a file** are found in the order in which they are visited. -/
theorem pairwise_flattenTasks (h : root.taskBlocks kind = some blocks) :
    (flattenTasks blocks).Pairwise root.TaskBefore := by
  have hitem : ∀ block ∈ indexItems [] root.items, root.at? block.path = some block.node := by
    intro block hblock
    obtain ⟨i, hpath, hitem⟩ := mem_indexItems_iff.mp hblock
    rw [hpath, List.nil_append, at?_cons, hitem, Option.bind_some, at?_nil]
  rcases kind_of_taskBlocks h with hkind | rfl
  · rw [taskBlocks_of_flat hkind h]
    exact pairwise_flatMap_indexItems (at?_nil root) (fun _ => isPrefix_of_mem_flattenAt)
      fun block hblock => pairwise_flattenAt (hitem block hblock)
  · rw [flattenTasks_playbook h]
    refine pairwise_flatMap_indexItems (at?_nil root) ?_ ?_
    · intro play task htask
      obtain ⟨key, -, hmem⟩ := List.mem_flatMap.mp htask
      obtain ⟨e, -, hprefix⟩ := hasKey_of_mem_tasksUnder task hmem
      exact (List.prefix_append _ _).trans hprefix
    · intro play hplay
      refine pairwise_flatMap_tasksUnder (hitem play hplay) .inl fun rest item hlists => ?_
      refine pairwise_flattenAt ?_
      rw [at?_append, hitem play hplay, Option.bind_some, hlists.at?]

/-- The tasks of a file stand where the order of their paths puts them. -/
theorem lt_iff_precedes (h : root.taskBlocks kind = some blocks) {i j : Nat} {a b : FlatTask α}
    (ha : (flattenTasks blocks)[i]? = some a) (hb : (flattenTasks blocks)[j]? = some b) :
    i < j ↔ root.Precedes a.path b.path := by
  have hordered : ∀ {i j : Nat} {a b : FlatTask α}, (flattenTasks blocks)[i]? = some a →
      (flattenTasks blocks)[j]? = some b → i < j → root.Precedes a.path b.path := by
    intro i j a b ha hb hlt
    obtain ⟨hi, rfl⟩ := List.getElem?_eq_some_iff.mp ha
    obtain ⟨hj, rfl⟩ := List.getElem?_eq_some_iff.mp hb
    exact List.pairwise_iff_getElem.mp (pairwise_flattenTasks h) i j hi hj hlt
  refine ⟨hordered ha hb, fun hprecedes => ?_⟩
  rcases Nat.lt_trichotomy i j with hlt | rfl | hgt
  · exact hlt
  · rw [ha] at hb
    cases hb
    exact absurd hprecedes hprecedes.asymm
  · exact absurd (hordered hb ha hgt) hprecedes.asymm

/-- **The tasks of a file stand at different paths.** -/
theorem nodup_path_flattenTasks (h : root.taskBlocks kind = some blocks) :
    ((flattenTasks blocks).map FlatTask.path).Nodup := by
  rw [List.Nodup, List.pairwise_map]
  refine (pairwise_flattenTasks h).imp fun {a b} hbefore hsame => ?_
  exact hbefore.not_isPrefix (hsame ▸ List.prefix_refl a.path)

/-- **Flattening lists each task once, by its path, inner ones first.**  The tasks of a file stand
at different paths; following such a path, or changing what is there, comes to the task; the tasks
are the listed ones; and they come in the order in which they are visited, what is inside a task
before the task. -/
theorem flattenTasks_spec (h : root.taskBlocks kind = some blocks) :
    ((flattenTasks blocks).map FlatTask.path).Nodup ∧
      (∀ task ∈ flattenTasks blocks, root.at? task.path = some task.node ∧
        ∀ f, (root.updateAt f task.path).at? task.path = some (f task.node)) ∧
      (∀ path node, ⟨path, node⟩ ∈ flattenTasks blocks ↔ root.ListedTask kind path node) ∧
      ∀ (i j : Nat) (a b : FlatTask α), (flattenTasks blocks)[i]? = some a →
        (flattenTasks blocks)[j]? = some b → (i < j ↔ root.Precedes a.path b.path) ∧
        (b.path <+: a.path → a.path ≠ b.path → i < j) := by
  refine ⟨nodup_path_flattenTasks h, fun task htask => ?_,
    fun path node => mem_flattenTasks_iff h, fun i j a b ha hb => ?_⟩
  · have hat := at?_of_mem_flattenTasks h task htask
    refine ⟨hat, fun f => ?_⟩
    rw [at?_updateAt_self, hat, Option.map_some]
  · have hiff := lt_iff_precedes h ha hb
    exact ⟨hiff, fun hwithin hne => hiff.mpr (.of_isPrefix hwithin hne)⟩

/-- In a playbook with a block in its handlers and a task in its tasks, the task comes first, and
what is in the block comes before it. -/
theorem flattenTasks_spec_block :
    let key (name : String) : Tree Unit := .scalar 1 () (.string name)
    let task : Tree Unit := .mapping 1 () [(key "meta", key "noop")]
    let block : Tree Unit := .mapping 1 () [(key "block", .sequence 1 () [task])]
    let root : Tree Unit := .sequence 1 () [.mapping 1 ()
      [(key "handlers", .sequence 1 () [block]), (key "tasks", .sequence 1 () [task])]]
    ∃ blocks, root.taskBlocks .playbook = some blocks ∧
      (flattenTasks blocks).map FlatTask.path =
        [[.item 0, .entry 1, .item 0], [.item 0, .entry 0, .item 0, .entry 0, .item 0],
          [.item 0, .entry 0, .item 0]] ∧
      root.ListedTask .playbook [.item 0, .entry 0, .item 0, .entry 0, .item 0] task ∧
      root.Precedes [.item 0, .entry 1, .item 0] [.item 0, .entry 0, .item 0] := by
  intro key task block root
  have hblocks : root.taskBlocks .playbook = some
      [⟨[.item 0, .entry 1, .item 0], task⟩, ⟨[.item 0, .entry 0, .item 0], block⟩] := rfl
  obtain ⟨-, -, hlisted, horder⟩ := flattenTasks_spec hblocks
  refine ⟨_, hblocks, rfl, ?_, ?_⟩
  · exact (hlisted _ _).mp (List.mem_of_getElem? (i := 1) rfl)
  · exact (horder 0 2 _ _ rfl rfl).1.mp (by decide)

end Files

end Tree

end PlaybookLint
