import PlaybookLint.Proofs.Silencing
import PlaybookLint.Rule.Tasks

/-!
# Malformed plays

The rules look at whatever tasks a playbook has: plays that are no mappings and sections that are no
lists are passed over. Lists are attached with less tolerance, to all tasks of a playbook or to
none. This module says which playbooks are affected: those with a play that is not regular. All
tasks of any other file have their lists.

## Main definitions

* `Tree.IsRegularPlay` - a play whose sections are lists, as far as they are there.

## Main statements

* `Tree.isSome_taskBlocks_iff` - the task lists of a file are found if all its plays are regular.
* `Document.note_eq_none_of_unlisted` - the tasks of a document to which nothing was attached have
  no lists.
* `tasks_listed_iff` - all tasks of a file have lists, unless a play in it is not regular.
-/

namespace PlaybookLint

theorem isSome_mapM_iff {g : α → Option β} {l : List α} :
    (l.mapM g).isSome = true ↔ ∀ a ∈ l, (g a).isSome = true := by
  induction l with
  | nil => simp
  | cons a l ih =>
      rw [List.mapM_cons, List.forall_mem_cons, ← ih]
      cases g a with
      | none => simp
      | some b => cases l.mapM g <;> simp

theorem FileKind.isFlat_eq_false_of_hasTasks {kind : FileKind} (h : kind.hasTasks = true) :
    kind.isFlat = false := by
  cases kind with
  | tasks | handlers | playbook => rfl
  | _ => exact nomatch h

/-! ### Regular plays -/

namespace Tree

/-- A play whose sections are lists, as far as they are there and not empty. -/
structure IsRegularPlay (play : Tree α) : Prop where
  mapping : play.isMapping = true
  sections : ∀ key ∈ playSections, ∀ value, play.get? key = some value →
    value.isTruthy = true → value.items?.isSome = true

variable {path : TreePath} {play : Tree α}

theorem isSome_sectionBlocks_iff {key : String} :
    (sectionBlocks path play key).isSome = true ↔
      ∀ value, play.get? key = some value → value.isTruthy = true →
        value.items?.isSome = true := by
  rw [sectionBlocks, get?]
  cases play.lookup? key with
  | none => simp
  | some found =>
      obtain ⟨i, value⟩ := found
      dsimp only
      split
      next htruthy => simp [htruthy]
      next hfalsy => simp [hfalsy]

theorem isSome_playBlocks_iff : (playBlocks path play).isSome = true ↔ play.IsRegularPlay := by
  rw [playBlocks]
  split
  next hmapping =>
    rw [Option.isSome_map, isSome_mapM_iff]
    simp only [isSome_sectionBlocks_iff]
    exact ⟨fun h => ⟨hmapping, h⟩, fun h => h.sections⟩
  next hmapping => exact ⟨fun h => absurd h Bool.false_ne_true, fun h => absurd h.mapping hmapping⟩

/-- **The task lists of a playbook are found** if it is a list and all its plays are regular. -/
theorem isSome_taskBlocks_iff {root : Tree α} :
    (root.taskBlocks .playbook).isSome = true ↔
      root.items?.isSome = true ∧ ∀ play ∈ root.items, play.IsRegularPlay := by
  rw [taskBlocks, items]
  cases root.items? with
  | none => simp
  | some plays =>
      rw [Option.bind_some, Option.isSome_map, isSome_mapM_iff, Option.getD_some]
      simp only [isSome_playBlocks_iff]
      -- what matters of a play with its place is the play
      rw [← List.forall_mem_map, node_indexItems]
      simp

/-- If the task lists of a file of which no play is irregular are not found, it is no list. -/
theorem items_eq_nil_of_taskBlocks {kind : FileKind} {root : Tree α}
    (htasks : kind.hasTasks = true) (h : root.taskBlocks kind = none)
    (hregular : kind ≠ .playbook ∨ ∀ play ∈ root.items, play.IsRegularPlay) : root.items = [] := by
  have hitems : root.items? = none := by
    cases kind with
    | tasks | handlers => exact Option.map_eq_none_iff.mp h
    | playbook =>
        have hplays := hregular.resolve_left fun hne => hne rfl
        refine Option.not_isSome_iff_eq_none.mp fun hsome => ?_
        have hfound := isSome_taskBlocks_iff.mpr ⟨hsome, hplays⟩
        rw [h] at hfound
        exact nomatch hfound
    | _ => exact nomatch htasks
  rw [items, hitems, Option.getD_none]

end Tree

/-! ### Tasks without lists -/

namespace Document

theorem unlisted_of_mem_tasksOfList {isHandler : Bool} {items : List Node}
    (h : ∀ item ∈ items, item.Unlisted) : ∀ task ∈ tasksOfList isHandler items,
      task.node.Unlisted := by
  intro task htask
  have hnode : task.node ∈ (tasksOfList isHandler items).map Task.node := List.mem_map_of_mem htask
  rw [node_tasksOfList] at hnode
  obtain ⟨flat, hflat, hsame⟩ := List.mem_map.mp (List.mem_filter.mp hnode).1
  exact hsame ▸ Tree.map_eq_self_of_mem_flattenTasks h flat hflat

theorem unlisted_of_mem_tasksOfPlay {play : Node} (h : play.Unlisted) :
    ∀ task ∈ tasksOfPlay play, task.node.Unlisted := by
  intro task htask
  obtain ⟨key, -, htask⟩ := List.mem_flatMap.mp htask
  refine unlisted_of_mem_tasksOfList (fun item hitem => ?_) task htask
  rw [Tree.itemsOf] at hitem
  cases hvalue : play.get? key with
  | none =>
      rw [hvalue] at hitem
      cases hitem
  | some value =>
      rw [hvalue] at hitem
      exact Tree.map_eq_self_of_mem_items (Tree.map_eq_self_of_get? h hvalue) hitem

/-- **The tasks of a document to which nothing was attached have no lists.** -/
theorem note_eq_none_of_unlisted {doc : Document} (h : doc.data.Unlisted) :
    ∀ task ∈ doc.tasks, task.node.note = none := by
  have hitems : ∀ item ∈ doc.data.items, item.Unlisted :=
    fun _ hitem => Tree.map_eq_self_of_mem_items h hitem
  intro task htask
  suffices hnode : task.node.Unlisted from hnode.note_eq_none
  unfold tasks at htask
  split at htask
  · exact unlisted_of_mem_tasksOfList hitems task htask
  · exact unlisted_of_mem_tasksOfList hitems task htask
  next hkind =>
    obtain ⟨play, hplay, htask⟩ := List.mem_flatMap.mp htask
    rw [plays, hkind] at hplay
    have hmem := (List.mem_filter.mp hplay).1
    exact unlisted_of_mem_tasksOfPlay (hitems play hmem) task htask
  · cases htask

/-- If the task lists of a document are found, all its tasks have lists. -/
theorem isSome_note_of_taskBlocks (path : Path) (override : Option FileKind) (source : List Char)
    {events : List Yaml.Event} {root : Node} (hone : Node.documents events = [root])
    (hblocks : (root.taskBlocks (override.getD (FileKind.detect path root))).isSome = true) :
    let doc := ofTrees path override root (CommentTree.ofEvents source events)
    ∀ task ∈ doc.tasks, task.node.note.isSome = true := by
  intro doc task htask
  obtain ⟨comments, htree, hsame⟩ := CommentTree.exists_root hone source
  obtain ⟨own, hown, hlists⟩ := listsOnTasks_attachSkips (Node.unlisted_of_documents_eq hone) htree
    hsame (Option.some_get hblocks).symm
  have hnode : task.node ∈ doc.tasks.map Task.node := List.mem_map_of_mem htask
  rw [node_tasks hown] at hnode
  obtain ⟨hflat, hmapping⟩ := List.mem_filter.mp hnode
  obtain ⟨flat, hflat, hflatNode⟩ := List.mem_map.mp hflat
  rw [← hflatNode] at hmapping ⊢
  obtain ⟨comment, -, -, hnote, -⟩ :=
    hlists.listed flat hflat (Tree.isString_of_isMapping hmapping)
  rw [hnote]
  rfl

theorem tasks_eq_nil_of_items {doc : Document} (h : doc.data.items = []) : doc.tasks = [] := by
  unfold tasks plays
  rw [h]
  cases doc.kind <;> rfl

end Document

/-- **Which files have lists on all their tasks.**  In a file with one document, every task that the
rules look at has a suppression list, unless the file is a playbook with tasks in which some play is
not regular: then no task has one. -/
theorem tasks_listed_iff (path : Path) (override : Option FileKind) (source : List Char)
    {events : List Yaml.Event} {root : Node} (hone : Node.documents events = [root]) :
    let doc := Document.ofTrees path override root (CommentTree.ofEvents source events)
    ((∀ task ∈ doc.tasks, task.node.note.isSome = true) ∨
        ∀ task ∈ doc.tasks, task.node.note = none) ∧
      ((∀ task ∈ doc.tasks, task.node.note.isSome = true) ↔
        doc.tasks = [] ∨ doc.kind ≠ .playbook ∨ ∀ play ∈ root.items, play.IsRegularPlay) := by
  intro doc
  cases hblocks : root.taskBlocks doc.kind with
  | some blocks =>
      have hfound : (root.taskBlocks doc.kind).isSome = true := hblocks ▸ rfl
      have hall := Document.isSome_note_of_taskBlocks path override source hone hfound
      refine ⟨.inl hall, fun _ => .inr ?_, fun _ => hall⟩
      refine Decidable.or_iff_not_imp_left.mpr fun hkind => ?_
      rw [Decidable.not_not.mp hkind] at hfound
      exact (Tree.isSome_taskBlocks_iff.mp hfound).2
  | none =>
      cases htasks : doc.kind.hasTasks with
      | false =>
          have hempty := tasks_of_not_hasTasks htasks
          rw [hempty]
          exact ⟨.inl nofun, fun _ => .inl rfl, fun _ => nofun⟩
      | true =>
          -- the document is left as it was read
          have hdata : doc.data = root :=
            attachSkips_eq_self (FileKind.isFlat_eq_false_of_hasTasks htasks) hblocks
          have hunlisted : doc.data.Unlisted := hdata ▸ Node.unlisted_of_documents_eq hone
          have hnone := Document.note_eq_none_of_unlisted hunlisted
          refine ⟨.inr hnone, fun hall => .inl ?_, fun hshape => ?_⟩
          · refine List.eq_nil_iff_forall_not_mem.mpr fun task htask => ?_
            have hsome := hall task htask
            rw [hnone task htask] at hsome
            exact nomatch hsome
          · have hempty : doc.tasks = [] := hshape.elim id fun hregular =>
              Document.tasks_eq_nil_of_items
                (hdata ▸ Tree.items_eq_nil_of_taskBlocks htasks hblocks hregular)
            rw [hempty]
            exact nofun

/-- The theorem applies to a playbook with a section that is missing, one that is empty and one that
is a list: its task has a list. -/
theorem tasks_listed_regular :
    let text := "- hosts: all\n  tasks:\n    - ping:\n  handlers:\n"
    let events := (Yaml.Event.read text).toOption.getD []
    let doc := Document.ofTrees ⟨"site.yml"⟩ none (Node.ofEvents events)
      (CommentTree.ofEvents text.toList events)
    doc.kind = .playbook ∧ doc.tasks.length = 1 ∧
      ∀ task ∈ doc.tasks, task.node.note.isSome = true := by
  intro text events doc
  have hone : Node.documents events = [Node.ofEvents events] :=
    Node.documents_eq_singleton (by decide +kernel)
  have hblocks : ((Node.ofEvents events).taskBlocks .playbook).isSome = true := by decide +kernel
  have hplays := (Tree.isSome_taskBlocks_iff.mp hblocks).2
  have hlisted := tasks_listed_iff ⟨"site.yml"⟩ none text.toList hone
  exact ⟨by decide +kernel, by decide +kernel, hlisted.2.mpr (.inr (.inr hplays))⟩

/-- A task with a marker in it, in a playbook with an item that is no play: the task has no list,
and what the marker names is reported on the first line of the task. -/
theorem reported_beside_malformed_play :
    let text :=
      "- hosts: all\n  tasks:\n    - name: check\n      ping:  # noqa: fqcn\n- just text\n"
    let events := (Yaml.Event.read text).toOption.getD []
    let doc := Document.ofTrees ⟨"site.yml"⟩ none (Node.ofEvents events)
      (CommentTree.ofEvents text.toList events)
    doc.kind = .playbook ∧ doc.tasks.map (fun task => task.node.note) = [none] ∧
      (doc.data.taskBlocks doc.kind).isSome = false ∧
      (doc.lint [Rule.QualifiedName.rule]).map (fun f => (f.line, f.rule)) = [(3, "fqcn")] := by
  decide +kernel

end PlaybookLint
