import PlaybookLint.Proofs.Content
import PlaybookLint.Proofs.Nesting

/-!
# The tasks of a tree and their paths

Flattening finds the same tasks in trees with the same content, and the path that it gives to a task
leads to that task.

## Main statements

* `Tree.flattenAt_moved` - the tasks in a node depend on the notes and on the path of the node in
  the obvious way only.
* `Tree.taskBlocks_map`, `Tree.flattenTasks_map` - trees with the same content have the same tasks.
* `Tree.at?_of_mem_flattenTasks` - the path of a task leads to it.
* `Tree.flattenTasks_playBlocks` - the tasks of a play are those under its sections.
-/

namespace PlaybookLint

namespace FlatTask

/-- The task with the tree that holds it moved to a path and given other notes. -/
def moved (path : TreePath) (f : α → β) (task : FlatTask α) : FlatTask β :=
  ⟨path ++ task.path, task.node.map f⟩

/-- The task with other notes. -/
def map (f : α → β) (task : FlatTask α) : FlatTask β :=
  ⟨task.path, task.node.map f⟩

/-- The task without the notes. -/
def erase (task : FlatTask α) : FlatTask Unit :=
  task.map fun _ => ()

theorem erase_eq {a : FlatTask α} {b : FlatTask β} (h : a.erase = b.erase) :
    a.path = b.path ∧ a.node.erase = b.node.erase := by
  obtain ⟨path, node⟩ := a
  obtain ⟨path', node'⟩ := b
  exact ⟨congrArg FlatTask.path h, congrArg FlatTask.node h⟩

/-- Among tasks that agree with others, every task has its counterpart. -/
theorem exists_counterpart {as : List (FlatTask α)} {bs : List (FlatTask β)}
    (h : as.map erase = bs.map erase) {a : FlatTask α} (ha : a ∈ as) :
    ∃ b ∈ bs, a.path = b.path ∧ a.node.erase = b.node.erase := by
  have hmem : a.erase ∈ bs.map erase := by
    rw [← h]
    exact List.mem_map_of_mem ha
  obtain ⟨b, hb, hba⟩ := List.mem_map.mp hmem
  exact ⟨b, hb, erase_eq hba.symm⟩

end FlatTask

theorem mapM_map_some (g : α → Option β) (h : β → γ) (l : List α) :
    (l.mapM fun a => (g a).map h) = (l.mapM g).map (List.map h) := by
  induction l with
  | nil => rfl
  | cons a l ih =>
      rw [List.mapM_cons, List.mapM_cons, ih]
      cases g a with
      | none => rfl
      | some b => cases l.mapM g <;> rfl

theorem map_eq_map_of_mapM {g : α → Option β} {l : List α} {bs : List β} (h : l.mapM g = some bs)
    {first : α → γ} {second : β → γ} (hsame : ∀ a b, g a = some b → first a = second b) :
    l.map first = bs.map second := by
  induction l generalizing bs with
  | nil =>
      cases h
      rfl
  | cons a l ih =>
      rw [List.mapM_cons, Option.bind_eq_bind, Option.bind_eq_some_iff] at h
      obtain ⟨b, hb, h⟩ := h
      rw [Option.bind_eq_bind, Option.bind_eq_some_iff] at h
      obtain ⟨later, hlater, h⟩ := h
      cases h
      rw [List.map_cons, List.map_cons, hsame a b hb, ih hlater]

theorem getD_map_nil (g : α → β) (l : Option (List α)) :
    (l.map (List.map g)).getD [] = (l.getD []).map g := by
  cases l <;> rfl

namespace Tree

/-! ### Flattening under a move -/

mutual

/-- **Flattening looks at content only**, and puts the path of a node before the paths in it. -/
theorem flattenAt_moved (q : TreePath) (f : α → β) (path : TreePath) : (t : Tree α) →
    (t.map f).flattenAt (q ++ path) = (t.flattenAt path).map (FlatTask.moved q f)
  | .scalar line note value => by
      rw [map_scalar, flattenAt, flattenAt]
      split <;> rfl
  | .sequence line note items => by
      rw [map, flattenAt, flattenAt]
      cases items <;> simp [mapItems, FlatTask.moved, map]
  | .mapping line note entries => by
      rw [map_mapping, flattenAt, flattenAt, List.isEmpty_map]
      split
      · rfl
      · rw [flattenKey_moved q f path "block" 0 entries,
          flattenKey_moved q f path "always" 0 entries,
          flattenKey_moved q f path "rescue" 0 entries, getD_map_nil, getD_map_nil, getD_map_nil]
        simp [FlatTask.moved]

theorem flattenKey_moved (q : TreePath) (f : α → β) (path : TreePath) (key : String) (index : Nat) :
    (entries : List (Tree α × Tree α)) →
    flattenKey (q ++ path) key index (entries.map (Prod.map (map f) (map f))) =
      (flattenKey path key index entries).map (List.map (FlatTask.moved q f))
  | [] => by simp [flattenKey]
  | (k, value) :: entries => by
      rw [List.map_cons, Prod.map, flattenKey, flattenKey,
        flattenKey_moved q f path key (index + 1) entries]
      -- if a later entry has the key, it is the one that counts, on both sides
      cases flattenKey path key (index + 1) entries with
      | some tasks => rfl
      | none =>
          dsimp only [Option.map_none]
          rw [string?_map, List.append_assoc, flattenList_moved q f _ value]
          split <;> rfl

theorem flattenList_moved (q : TreePath) (f : α → β) (path : TreePath) : (t : Tree α) →
    (t.map f).flattenList (q ++ path) = (t.flattenList path).map (FlatTask.moved q f)
  | .scalar line note value => by
      rw [map_scalar, flattenList, flattenList]
      · rfl
      all_goals nofun
  | .sequence line note items => by
      rw [map_sequence, flattenList, flattenList, flattenItems_moved q f path 0 items]
  | .mapping line note entries => by
      rw [map_mapping, flattenList, flattenList]
      · rfl
      all_goals nofun

theorem flattenItems_moved (q : TreePath) (f : α → β) (path : TreePath) (index : Nat) :
    (items : List (Tree α)) →
    flattenItems (q ++ path) index (items.map (map f)) =
      (flattenItems path index items).map (FlatTask.moved q f)
  | [] => by simp [flattenItems]
  | item :: items => by
      rw [List.map_cons, flattenItems, flattenItems, List.map_append, List.append_assoc,
        flattenAt_moved q f _ item, flattenItems_moved q f path (index + 1) items]

end

/-- The tasks in a node do not depend on where it stands. -/
theorem node_flattenAt (path : TreePath) (t : Tree α) :
    (t.flattenAt path).map FlatTask.node = (t.flattenAt []).map FlatTask.node := by
  -- a node at `path` is the same node at the root, moved to `path`
  have hmoved := flattenAt_moved path id [] t
  rw [map_id, List.append_nil] at hmoved
  rw [hmoved, List.map_map]
  exact List.map_congr_left fun task _ => map_id task.node

theorem flattenTasks_map (f : α → β) (blocks : List (FlatTask α)) :
    flattenTasks (blocks.map (FlatTask.map f)) = (flattenTasks blocks).map (FlatTask.map f) := by
  rw [flattenTasks, flattenTasks, List.flatMap_map, List.map_flatMap]
  exact congrArg (blocks.flatMap ·) (funext fun task => flattenAt_moved [] f task.path task.node)

/-! ### Task lists under other notes -/

theorem indexItems_map (f : α → β) (path : TreePath) (items : List (Tree α)) :
    indexItems path (items.map (map f)) = (indexItems path items).map (FlatTask.map f) := by
  rw [indexItems, indexItems, List.zipIdx_map, List.map_map, List.map_map]
  rfl

theorem sectionBlocks_map (f : α → β) (path : TreePath) (play : Tree α) (key : String) :
    sectionBlocks path (play.map f) key =
      (sectionBlocks path play key).map (List.map (FlatTask.map f)) := by
  rw [sectionBlocks, sectionBlocks, lookup?_map]
  cases play.lookup? key with
  | none => rfl
  | some found =>
      obtain ⟨i, value⟩ := found
      dsimp only [Option.map_some, Prod.map, id_eq]
      rw [isTruthy_map, items?_map]
      split
      · cases value.items? with
        | none => rfl
        | some items => exact congrArg some (indexItems_map f (path ++ [.entry i]) items)
      · rfl

theorem playBlocks_map (f : α → β) (path : TreePath) (play : Tree α) :
    playBlocks path (play.map f) = (playBlocks path play).map (List.map (FlatTask.map f)) := by
  rw [playBlocks, playBlocks, isMapping_map]
  split
  · have hsections : sectionBlocks path (play.map f) = fun key =>
        (sectionBlocks path play key).map (List.map (FlatTask.map f)) :=
      funext (sectionBlocks_map f path play)
    rw [hsections, mapM_map_some, Option.map_map, Option.map_map]
    congr 1
    funext sections
    exact List.map_flatten.symm
  · rfl

/-- **Trees with the same content have the same task lists**, or both have none. -/
theorem taskBlocks_map (f : α → β) (kind : FileKind) (root : Tree α) :
    taskBlocks kind (root.map f) =
      (taskBlocks kind root).map (List.map (FlatTask.map f)) := by
  have hitems := items?_map f root
  cases kind with
  | tasks | handlers =>
      rw [taskBlocks, taskBlocks, hitems]
      cases root.items? with
      | none => rfl
      | some items => exact congrArg some (indexItems_map f [] items)
  | playbook =>
      rw [taskBlocks, taskBlocks, hitems]
      cases root.items? with
      | none => rfl
      | some plays =>
          dsimp only [Option.map_some, Option.bind_some]
          rw [indexItems_map, List.mapM_map]
          simp only [Function.comp_def, FlatTask.map, playBlocks_map]
          rw [mapM_map_some, Option.map_map, Option.map_map]
          congr 1
          funext sections
          exact List.map_flatten.symm
  | _ => rfl

/-- If all notes of some items stay as they are, so do those of the tasks in them. -/
theorem map_eq_self_of_mem_flattenTasks {f : α → α} {path : TreePath} {items : List (Tree α)}
    (h : ∀ item ∈ items, item.map f = item) :
    ∀ task ∈ flattenTasks (indexItems path items), task.node.map f = task.node := by
  intro task htask
  have hitems : items.map (map f) = items := (List.map_congr_left h).trans (List.map_id items)
  have hmap := flattenTasks_map f (indexItems path items)
  rw [← indexItems_map, hitems] at hmap
  have hfixed := List.map_inj_left.mp (hmap.symm.trans (List.map_id _).symm) task htask
  exact congrArg FlatTask.node hfixed

/-- If one of two trees with the same content has task lists, so has the other one, and the tasks
agree position by position. -/
theorem taskBlocks_of_erase {kind : FileKind} {t : Tree α} {u : Tree β} (h : t.erase = u.erase)
    {blocks : List (FlatTask β)} (hblocks : u.taskBlocks kind = some blocks) :
    ∃ own, t.taskBlocks kind = some own ∧
      (flattenTasks own).map FlatTask.erase = (flattenTasks blocks).map FlatTask.erase := by
  -- the two trees meet in what they are without their notes
  have herased : t.erase.taskBlocks kind = some (blocks.map FlatTask.erase) := by
    rw [h, Tree.erase, taskBlocks_map, hblocks]
    rfl
  rw [Tree.erase, taskBlocks_map] at herased
  obtain ⟨own, hown, hagree⟩ := Option.map_eq_some_iff.mp herased
  have hflat := congrArg flattenTasks hagree
  rw [flattenTasks_map] at hflat
  exact ⟨own, hown, hflat.trans (flattenTasks_map _ blocks)⟩

end Tree

/-! ### Where the paths lead -/

/-- The path of the task goes on from `path`, and the rest of it leads from `t` to the task. -/
def FlatTask.Leads (path : TreePath) (t : Tree α) (task : FlatTask α) : Prop :=
  ∃ rest, task.path = path ++ rest ∧ t.at? rest = some task.node

/-- The same for a task that is not `t` itself. -/
def FlatTask.LeadsInside (path : TreePath) (t : Tree α) (task : FlatTask α) : Prop :=
  ∃ step rest, task.path = path ++ step :: rest ∧ t.at? (step :: rest) = some task.node

namespace FlatTask

theorem leads_self (path : TreePath) (t : Tree α) : FlatTask.Leads path t ⟨path, t⟩ :=
  ⟨[], (List.append_nil path).symm, Tree.at?_nil t⟩

theorem LeadsInside.leads {path : TreePath} {t : Tree α} {task : FlatTask α}
    (h : task.LeadsInside path t) : task.Leads path t := by
  obtain ⟨step, rest, hpath, hnode⟩ := h
  exact ⟨step :: rest, hpath, hnode⟩

theorem Leads.inside {path : TreePath} {t c : Tree α} {step : Step} {task : FlatTask α}
    (h : task.Leads (path ++ [step]) c) (hstep : t.child? step = some c) :
    task.LeadsInside path t := by
  obtain ⟨rest, hpath, hrest⟩ := h
  refine ⟨step, rest, ?_, ?_⟩
  · rw [hpath, List.append_assoc, List.singleton_append]
  · rw [Tree.at?_cons, hstep]
    exact hrest

theorem LeadsInside.trans {path : TreePath} {t : Tree α} {block task : FlatTask α}
    (hblock : block.LeadsInside path t) (h : task.Leads block.path block.node) :
    task.LeadsInside path t := by
  obtain ⟨step, first, hfirst, hnode⟩ := hblock
  obtain ⟨rest, hpath, hrest⟩ := h
  refine ⟨step, first ++ rest, ?_, ?_⟩
  · rw [hpath, hfirst, List.append_assoc, List.cons_append]
  · rw [← List.cons_append, Tree.at?_append, hnode]
    exact hrest

end FlatTask

namespace Tree

/-- The tasks in a node stand below its path. -/
theorem leads_of_mem_flattenAt (path : TreePath) (t : Tree α) :
    ∀ task ∈ t.flattenAt path, task.Leads path t := by
  induction t using nesting_induction generalizing path with
  | nested t ih =>
      intro task htask
      obtain ⟨-, ⟨rest, item, hlists, hmem⟩ | rfl⟩ := mem_flattenAt_iff.mp htask
      · obtain ⟨below, hpath, hnode⟩ := ih rest item hlists _ task hmem
        refine ⟨rest ++ below, ?_, ?_⟩
        · rw [hpath, List.append_assoc]
        · rw [at?_append, hlists.at?, Option.bind_some, hnode]
      · exact FlatTask.leads_self path t

theorem leads_of_mem_indexItems {path : TreePath} {t : Tree α} {items : List (Tree α)}
    (hitems : t.items? = some items) :
    ∀ task ∈ indexItems path items, task.LeadsInside path t := by
  intro task htask
  obtain ⟨⟨item, i⟩, hmem, rfl⟩ := List.mem_map.mp htask
  cases t with
  | sequence line note own =>
      cases hitems
      have hitem : items[i]? = some item := List.mem_zipIdx_iff_getElem?.mp hmem
      exact ⟨.item i, [], rfl, by rw [at?_cons, child?, hitem, Option.bind_some, at?_nil]⟩
  | scalar | mapping => cases hitems

theorem leads_of_mem_sectionBlocks {path : TreePath} {play : Tree α} {key : String}
    {blocks : List (FlatTask α)} (h : sectionBlocks path play key = some blocks) :
    ∀ task ∈ blocks, task.LeadsInside path play := by
  intro task htask
  rw [sectionBlocks] at h
  cases hfound : play.lookup? key with
  | none =>
      rw [hfound] at h
      cases h
      exact nomatch htask
  | some found =>
      obtain ⟨i, value⟩ := found
      rw [hfound] at h
      dsimp only at h
      split at h
      · obtain ⟨items, hitems, rfl⟩ := Option.map_eq_some_iff.mp h
        exact (leads_of_mem_indexItems hitems task htask).leads.inside
          (lookup?_eq_some_iff.mp hfound).child?
      · cases h
        exact nomatch htask

theorem leads_of_mem_playBlocks {path : TreePath} {play : Tree α} {blocks : List (FlatTask α)}
    (h : playBlocks path play = some blocks) : ∀ task ∈ blocks, task.LeadsInside path play := by
  intro task htask
  rw [playBlocks] at h
  split at h
  · obtain ⟨sections, hsections, rfl⟩ := Option.map_eq_some_iff.mp h
    obtain ⟨items, hitems, hmem⟩ := List.mem_flatten.mp htask
    have hsection : some items ∈ playSections.map (sectionBlocks path play) := by
      rw [map_eq_map_of_mapM hsections fun _ _ h => h]
      exact List.mem_map_of_mem hitems
    obtain ⟨key, -, hkey⟩ := List.mem_map.mp hsection
    exact leads_of_mem_sectionBlocks hkey task hmem
  · exact nomatch h

theorem leads_of_mem_taskBlocks {kind : FileKind} {root : Tree α} {blocks : List (FlatTask α)}
    (h : root.taskBlocks kind = some blocks) : ∀ task ∈ blocks, task.LeadsInside [] root := by
  intro task htask
  cases kind with
  | tasks | handlers =>
      obtain ⟨items, hitems, rfl⟩ := Option.map_eq_some_iff.mp h
      exact leads_of_mem_indexItems hitems task htask
  | playbook =>
      obtain ⟨plays, hplays, h⟩ := Option.bind_eq_some_iff.mp h
      obtain ⟨parts, hparts, rfl⟩ := Option.map_eq_some_iff.mp h
      obtain ⟨items, hitems, hmem⟩ := List.mem_flatten.mp htask
      have hpart : some items ∈
          (indexItems [] plays).map fun play => playBlocks play.path play.node := by
        rw [map_eq_map_of_mapM hparts fun _ _ h => h]
        exact List.mem_map_of_mem hitems
      obtain ⟨play, hplay, hblocks⟩ := List.mem_map.mp hpart
      exact (leads_of_mem_indexItems hplays play hplay).trans
        (leads_of_mem_playBlocks hblocks task hmem).leads
  | _ => exact nomatch h

theorem leads_of_mem_flattenTasks {kind : FileKind} {root : Tree α} {blocks : List (FlatTask α)}
    (h : root.taskBlocks kind = some blocks) :
    ∀ task ∈ flattenTasks blocks, task.LeadsInside [] root := by
  intro task htask
  obtain ⟨block, hblock, hmem⟩ := List.mem_flatMap.mp htask
  exact (leads_of_mem_taskBlocks h block hblock).trans
    (leads_of_mem_flattenAt block.path block.node task hmem)

/-- **The path of a task leads to it** from the root of the file. -/
theorem at?_of_mem_flattenTasks {kind : FileKind} {root : Tree α} {blocks : List (FlatTask α)}
    (h : root.taskBlocks kind = some blocks) :
    ∀ task ∈ flattenTasks blocks, root.at? task.path = some task.node := by
  intro task htask
  obtain ⟨step, rest, hpath, hnode⟩ := leads_of_mem_flattenTasks h task htask
  rw [hpath]
  exact hnode

/-- The root of a file is none of its tasks. -/
theorem path_ne_nil_of_mem_flattenTasks {kind : FileKind} {root : Tree α}
    {blocks : List (FlatTask α)} (h : root.taskBlocks kind = some blocks) :
    ∀ task ∈ flattenTasks blocks, task.path ≠ [] := by
  intro task htask
  obtain ⟨step, rest, hpath, -⟩ := leads_of_mem_flattenTasks h task htask
  rw [hpath]
  exact List.cons_ne_nil step rest

/-! ### Task lists by their keys -/

theorem flattenTasks_flatten (parts : List (List (FlatTask α))) :
    flattenTasks parts.flatten = parts.flatMap flattenTasks := by
  induction parts with
  | nil => rfl
  | cons part parts ih =>
      rw [List.flatten_cons, flattenTasks, List.flatMap_append, ← flattenTasks, ← flattenTasks, ih,
        List.flatMap_cons]

theorem items_of_not_isTruthy {t : Tree α} (h : ¬ t.isTruthy = true) : t.items = [] := by
  cases t with
  | sequence line note items =>
      rw [isTruthy, Bool.not_eq_true', Bool.not_eq_false, List.isEmpty_iff] at h
      exact h
  | scalar | mapping => rfl

/-- The tasks of a section are those under its key. -/
theorem flattenTasks_sectionBlocks {path : TreePath} {play : Tree α} {key : String}
    {blocks : List (FlatTask α)} (h : sectionBlocks path play key = some blocks) :
    play.tasksUnder path key = flattenTasks blocks := by
  rw [sectionBlocks] at h
  rw [tasksUnder]
  cases hfound : play.lookup? key with
  | none =>
      rw [hfound] at h
      cases h
      rfl
  | some found =>
      obtain ⟨i, value⟩ := found
      rw [hfound] at h
      dsimp only at h ⊢
      split at h
      next =>
        obtain ⟨items, hitems, rfl⟩ := Option.map_eq_some_iff.mp h
        rw [Tree.items, hitems, Option.getD_some]
      next hfalsy =>
        cases h
        rw [items_of_not_isTruthy hfalsy]
        rfl

theorem flattenTasks_playBlocks {path : TreePath} {play : Tree α} {blocks : List (FlatTask α)}
    (h : playBlocks path play = some blocks) :
    playSections.flatMap (play.tasksUnder path) = flattenTasks blocks := by
  rw [playBlocks] at h
  split at h
  · obtain ⟨sections, hsections, rfl⟩ := Option.map_eq_some_iff.mp h
    rw [flattenTasks_flatten, List.flatMap_def, List.flatMap_def]
    exact congrArg List.flatten
      (map_eq_map_of_mapM hsections fun _ _ hblocks => flattenTasks_sectionBlocks hblocks)
  · cases h

/-! ### The tasks without their paths -/

theorem node_indexItems (path : TreePath) (items : List (Tree α)) :
    (indexItems path items).map FlatTask.node = items := by
  rw [indexItems, List.map_map]
  exact List.zipIdx_map_fst 0 items

theorem node_flattenTasks (blocks : List (FlatTask α)) :
    (flattenTasks blocks).map FlatTask.node =
      (blocks.map FlatTask.node).flatMap fun t => (t.flattenAt []).map FlatTask.node := by
  rw [flattenTasks, List.map_flatMap, List.flatMap_map]
  congr 1
  funext task
  exact node_flattenAt task.path task.node

/-- The tasks in a list do not depend on where the list stands. -/
theorem node_flattenTasks_indexItems (path : TreePath) (items : List (Tree α)) :
    (flattenTasks (indexItems path items)).map FlatTask.node =
      (flattenTasks (indexItems [] items)).map FlatTask.node := by
  rw [node_flattenTasks, node_flattenTasks, node_indexItems, node_indexItems]

/-- The tasks under a key do not depend on where the node stands. -/
theorem node_tasksUnder (path : TreePath) (t : Tree α) (key : String) :
    (t.tasksUnder path key).map FlatTask.node =
      (flattenTasks (indexItems [] (t.itemsOf key))).map FlatTask.node := by
  rw [tasksUnder, itemsOf, get?]
  cases t.lookup? key with
  | none => rfl
  | some found => exact node_flattenTasks_indexItems _ _

theorem node_playBlocks {path : TreePath} {play : Tree α} {blocks : List (FlatTask α)}
    (h : playBlocks path play = some blocks) :
    play.isMapping = true ∧ (flattenTasks blocks).map FlatTask.node =
      playSections.flatMap fun key =>
        (flattenTasks (indexItems [] (play.itemsOf key))).map FlatTask.node := by
  constructor
  · rw [playBlocks] at h
    split at h
    next hmapping => exact hmapping
    next => exact nomatch h
  · rw [← flattenTasks_playBlocks h, List.map_flatMap]
    exact congrArg (playSections.flatMap ·) (funext (node_tasksUnder path play))

end Tree

end PlaybookLint
