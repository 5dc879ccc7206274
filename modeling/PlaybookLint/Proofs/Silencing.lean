import PlaybookLint.Lint
import PlaybookLint.Proofs.Attachment

/-!
# Exactly what nobody silenced

What rules say about a document before anything is left out is a list of findings that remember what
they are about. Linting reports this list, in order, without the findings that the author silenced;
and whether a finding is silenced can be read off the comments: those at the path of the task that
it is about, those of the whole file, and the marked lines.

## Main definitions

* `Origin`, `RawFinding` - a finding with what it is about.
* `Document.placedTasks` - the tasks of a document with their paths.
* `Document.raw` - everything that some rules say about a document.
* `RawFinding.isSilenced` - whether the comments of the file silence a finding.

## Main statements

* `isListed_skipsOfComments` - a list of identifiers names what its markers name.
* `lint_reports_unsilenced` - linting reports exactly the findings that are not silenced.
-/

namespace PlaybookLint

/-! ### Raw findings -/

/-- What a finding is about. -/
inductive Origin where
  /-- The document as a whole. -/
  | document
  /-- The shape of the document. -/
  | shape
  | play
  | task (path : TreePath) (task : Task)

/-- A finding with what it is about. -/
structure RawFinding where
  origin : Origin
  finding : Finding

/-- The tasks of the document with the paths that lead to them. -/
def Document.placedTasks (doc : Document) : List (TreePath × Task) :=
  let flat := ((doc.data.taskBlocks doc.kind).map Tree.flattenTasks).getD []
  ((flat.filter fun task => task.node.isMapping).map FlatTask.path).zip doc.tasks

namespace Rule

/-- What the rule says about a document as a whole. -/
def rawOnDocument (rule : Rule) (doc : Document) : List RawFinding :=
  match rule.onDocument doc with
  | .ok found => found.map (.mk .document)
  | .error e => [⟨.shape, .schemaFailure doc e⟩]

/-- What the rule says about a play. -/
def rawOnPlay (rule : Rule) (doc : Document) (play : Node) : List RawFinding :=
  (rule.onPlay doc play).map (.mk .play)

/-- What the rule says about the task at a path. -/
def rawOnTask (rule : Rule) (doc : Document) : TreePath × Task → List RawFinding
  | (path, task) =>
    match rule.onTask doc task with
    | .pass => []
    | .violation => [⟨.task path task, rule.info.violation doc task.line⟩]
    | .findings found => found.map (.mk (.task path task))

/-- Everything that the rule says about a document, its plays and its tasks. -/
def raw (rule : Rule) (doc : Document) : List RawFinding :=
  rule.rawOnDocument doc ++ doc.plays.flatMap (rule.rawOnPlay doc) ++
    doc.placedTasks.flatMap (rule.rawOnTask doc)

end Rule

/-- Everything that some rules say about the document, rule by rule. -/
def Document.raw (doc : Document) (rules : List Rule) : List RawFinding :=
  rules.flatMap fun rule => rule.raw doc

/-! ### Silenced findings -/

/-- Whether a marker among some comments names the rule or the tag of the finding. -/
def Finding.isNamed (f : Finding) (comments : List Comment) : Bool :=
  comments.any fun c => c.isMarker && f.isListed c.skips

/-- Whether the author silenced a finding: with a marker on its line; if it is about a task, with
the tag of tasks that no rule is to look at, or with a marker in the comments at the path of the
task; if it is about the whole of a file without tasks that is a mapping, with a marker anywhere in
it. `scanned` are all comments of the file, and `tree` has them placed. -/
def RawFinding.isSilenced (doc : Document) (tree : CommentTree) (scanned : List Comment)
    (raw : RawFinding) : Bool :=
  raw.finding.isLineSuppressed tree.lineSkips ||
    match raw.origin with
    | .document => doc.kind.isFlat && doc.data.isMapping && raw.finding.isNamed scanned
    | .shape | .play => false
    | .task path task =>
      task.tags.contains Task.skipTag ||
        (tree.root?.bind fun root => root.at? path).any fun node =>
          raw.finding.isNamed node.comments

/-- A list made from markers names what one of the markers names. -/
theorem isListed_skipsOfComments (f : Finding) (comments : List Comment) :
    f.isListed (skipsOfComments comments) = f.isNamed comments := by
  rw [Bool.eq_iff_iff, Finding.isListed, Finding.isNamed, List.any_eq_true, List.any_eq_true]
  simp only [mem_skipsOfComments, Bool.and_eq_true, Finding.isListed, List.any_eq_true]
  constructor
  · rintro ⟨name, ⟨c, hc, hmarker, hname⟩, heq⟩
    exact ⟨c, hc, hmarker, name, hname, heq⟩
  · rintro ⟨c, hc, hmarker, name, hname, heq⟩
    exact ⟨name, ⟨c, hc, hmarker, hname⟩, heq⟩

/-! ### The list of the whole file -/

section WholeFile

variable {kind : FileKind} {tree : CommentTree} {root : Node}

theorem isMapping_attachToRoot (skips : List String) (root : Node) :
    (attachToRoot skips root).isMapping = root.isMapping := by
  cases root with
  | scalar | mapping => rfl
  | sequence line note items =>
      cases items with
      | nil => rfl
      | cons first items =>
          rw [attachToRoot]
          split <;> rfl

theorem silenced_of_unlisted (hroot : root.Unlisted) : root.silenced = [] := by
  rw [Tree.silenced, hroot.note_eq_none]
  rfl

/-- A list attached as a whole counts for the root if that is a mapping. -/
theorem isListed_attachToRoot (hroot : root.Unlisted) (skips : List String) (f : Finding) :
    f.isListed (attachToRoot skips root).silenced = (root.isMapping && f.isListed skips) := by
  have hnone : f.isListed root.silenced = false := by
    rw [silenced_of_unlisted hroot]
    rfl
  cases root with
  | mapping line note entries => rfl
  | scalar line note value => exact hnone
  | sequence line note items =>
      cases items with
      | nil => exact hnone
      | cons first items =>
          -- the list goes to the first item, not to the root
          rw [attachToRoot]
          split <;> exact hnone

/-- A file of which no tasks can be found is left as it was read. -/
theorem attachSkips_eq_self (hflat : kind.isFlat = false) (h : root.taskBlocks kind = none) :
    attachSkips kind tree root = root := by
  rw [attachSkips, hflat, if_neg Bool.false_ne_true]
  cases htree : tree.root? with
  | none => rfl
  | some comments => simp [correlate, h]

/-- If tasks are found once lists are attached, the lists stand on them. -/
theorem listsOnTasks_of_taskBlocks {comments : CommentNode} (hroot : root.Unlisted)
    (htree : tree.root? = some comments) (hsame : comments.erase = root.erase)
    {own : List (FlatTask (Option (List String)))}
    (hown : (attachSkips kind tree root).taskBlocks kind = some own) :
    ListsOnTasks (attachSkips kind tree root) comments (Tree.flattenTasks own) := by
  cases hblocks : root.taskBlocks kind with
  | none =>
      rw [attachSkips_eq_self (isFlat_eq_false_of_taskBlocks hown) hblocks, hblocks] at hown
      exact nomatch hown
  | some blocks =>
      obtain ⟨own', hown', hlists⟩ := listsOnTasks_attachSkips hroot htree hsame hblocks
      have hsameOwn : own' = own := Option.some.inj (hown'.symm.trans hown)
      rwa [hsameOwn] at hlists

/-- In a file with tasks, nothing is silenced for the file as a whole. -/
theorem silenced_attachSkips {comments : CommentNode} (hroot : root.Unlisted)
    (htree : tree.root? = some comments) (hsame : comments.erase = root.erase)
    (hflat : kind.isFlat = false) : (attachSkips kind tree root).silenced = [] := by
  cases hblocks : root.taskBlocks kind with
  | none =>
      rw [attachSkips_eq_self hflat hblocks]
      exact silenced_of_unlisted hroot
  | some blocks =>
      obtain ⟨own, hown, hlists⟩ := listsOnTasks_attachSkips hroot htree hsame hblocks
      have hnone : (attachSkips kind tree root).note = none := by
        -- a list at the root would be that of a task, and no task is the root
        refine Decidable.byContradiction fun hne => ?_
        obtain ⟨task, htask, hpath, -⟩ := hlists.only [] _ (Tree.at?_nil _) hne
        exact Tree.path_ne_nil_of_mem_flattenTasks hown task htask hpath
      rw [Tree.silenced, hnone]
      rfl

/-- The comments that count in a file with one collection are all comments of the file. -/
theorem isNamed_comments {source : List Char} {events : List Yaml.Event} {comments : CommentNode}
    (htree : (CommentTree.ofEvents source events).root? = some comments)
    (hcollection : comments.isCollection = true) (f : Finding) :
    f.isNamed (CommentTree.ofEvents source events).comments =
      f.isNamed (CommentTree.scanned source events) := by
  have hcomments : (CommentTree.ofEvents source events).comments = comments.comments := by
    rw [CommentTree.comments, CommentTree.collections, CommentTree.root?_eq_some.mp htree,
      List.filter_cons, if_pos hcollection]
    exact List.append_nil comments.comments
  rw [hcomments, Finding.isNamed, Finding.isNamed]
  exact (CommentTree.comments_root htree).any_eq

/-- **What is silenced for the file as a whole**: what some marker in it names, if it is a mapping
in a file without tasks. -/
theorem isListed_silenced {source : List Char} {events : List Yaml.Event}
    (hone : Node.documents events = [root]) (kind : FileKind) (f : Finding) :
    let data := attachSkips kind (CommentTree.ofEvents source events) root
    f.isListed data.silenced =
      (kind.isFlat && data.isMapping && f.isNamed (CommentTree.scanned source events)) := by
  intro data
  obtain ⟨comments, htree, hsame⟩ := CommentTree.exists_root hone source
  have hroot := Node.unlisted_of_documents_eq hone
  cases hflat : kind.isFlat with
  | false =>
      rw [silenced_attachSkips hroot htree hsame hflat]
      rfl
  | true =>
      have hdata : data =
          attachToRoot (skipsOfComments (CommentTree.ofEvents source events).comments) root := by
        simp only [data, attachSkips, hflat, if_true]
      rw [hdata, isListed_attachToRoot hroot, isMapping_attachToRoot, isListed_skipsOfComments,
        Bool.true_and]
      cases hmapping : root.isMapping with
      | false => rfl
      | true =>
          have hcollection : comments.isCollection = true := by
            rw [Tree.isCollection_eq_of_erase hsame]
            exact Tree.isCollection_of_isMapping hmapping
          rw [isNamed_comments htree hcollection]

end WholeFile

/-! ### The lists of the tasks -/

/-- The tasks of a document with task lists, with their paths, are its flattened mappings. -/
theorem placedTasks_of_taskBlocks {doc : Document}
    {own : List (FlatTask (Option (List String)))}
    (hown : doc.data.taskBlocks doc.kind = some own) :
    doc.placedTasks.map Prod.snd = doc.tasks ∧
      ∀ placed ∈ doc.placedTasks, ∃ task ∈ Tree.flattenTasks own,
        placed.1 = task.path ∧ task.node = placed.2.node ∧ task.node.isMapping = true := by
  let flat := (Tree.flattenTasks own).filter fun task => task.node.isMapping
  have hnodes : flat.map FlatTask.node = doc.tasks.map Task.node := by
    rw [Document.node_tasks hown, List.filter_map]
    rfl
  have hlength := length_eq_of_map_eq hnodes
  have hplaced : doc.placedTasks = (flat.zip doc.tasks).map (Prod.map FlatTask.path id) := by
    rw [Document.placedTasks, hown]
    exact List.zip_map_left
  rw [hplaced]
  refine ⟨?_, fun placed hmem => ?_⟩
  · rw [List.map_map]
    exact List.map_snd_zip (Nat.le_of_eq hlength.symm)
  · obtain ⟨⟨task, given⟩, hpair, rfl⟩ := List.mem_map.mp hmem
    obtain ⟨htask, hmapping⟩ := List.mem_filter.mp (List.of_mem_zip hpair).1
    exact ⟨task, htask, rfl, eq_of_mem_zip hnodes _ hpair, hmapping⟩

/-- **What is silenced for a task**: what a marker in the comments at its path names, and everything
if it has the tag of tasks that no rule is to look at. -/
theorem isSkipped_of_listsOnTasks {data : Node} {comments : CommentNode}
    {own : List (FlatTask (Option (List String)))} (hlists : ListsOnTasks data comments own)
    {task : Task} {flat : FlatTask (Option (List String))} (hflat : flat ∈ own)
    (hnode : flat.node = task.node) (hmapping : flat.node.isMapping = true) :
    ∃ comment, comments.at? flat.path = some comment ∧ comment.erase = task.node.erase ∧
      ∀ f : Finding, task.isSkipped f.rule f.tag =
        (task.tags.contains Task.skipTag || f.isNamed comment.comments) := by
  obtain ⟨comment, hcomment, herase, hnote, -⟩ :=
    hlists.listed flat hflat (Tree.isString_of_isMapping hmapping)
  refine ⟨comment, hcomment, hnode ▸ herase, fun f => ?_⟩
  rw [hnode] at hnote
  rw [Task.isSkipped, Tree.silenced, hnote, Option.getD_some, ← isListed_skipsOfComments]
  rfl

/-! ### Filtering -/

theorem map_filter_mk (origin : Origin) (found : List Finding) (keep : RawFinding → Bool) :
    ((found.map (RawFinding.mk origin)).filter keep).map RawFinding.finding =
      found.filter fun f => keep ⟨origin, f⟩ := by
  rw [List.filter_map, List.map_map]
  exact List.map_id _

section Filtering

variable {doc : Document} {tree : CommentTree} {scanned : List Comment}

/-- What is left of the findings about the document as a whole. -/
theorem filter_runOnDocument (hline : doc.lineSkips = tree.lineSkips)
    (hwhole : ∀ f : Finding, f.isListed doc.data.silenced =
      (doc.kind.isFlat && doc.data.isMapping && f.isNamed scanned)) (rule : Rule) :
    (rule.runOnDocument doc).filter (fun f => !f.isLineSuppressed doc.lineSkips) =
      ((rule.rawOnDocument doc).filter fun raw => !raw.isSilenced doc tree scanned).map
        RawFinding.finding := by
  unfold Rule.runOnDocument Rule.rawOnDocument
  cases rule.onDocument doc with
  | ok found =>
      dsimp only
      rw [map_filter_mk, List.filter_filter]
      congr 1
      funext f
      rw [hwhole, hline, RawFinding.isSilenced, Bool.not_or]
  | error e =>
      have hshape := map_filter_mk .shape [Finding.schemaFailure doc e]
        fun raw => !raw.isSilenced doc tree scanned
      refine Eq.trans ?_ hshape.symm
      dsimp only
      congr 1
      funext f
      rw [hline, RawFinding.isSilenced, Bool.or_false]

/-- What is left of the findings about a play. -/
theorem filter_onPlay (hline : doc.lineSkips = tree.lineSkips) (rule : Rule) (play : Node) :
    (rule.onPlay doc play).filter (fun f => !f.isLineSuppressed doc.lineSkips) =
      ((rule.rawOnPlay doc play).filter fun raw => !raw.isSilenced doc tree scanned).map
        RawFinding.finding := by
  rw [Rule.rawOnPlay, map_filter_mk]
  congr 1
  funext f
  rw [hline, RawFinding.isSilenced, Bool.or_false]

/-- What is left of the findings about a task. -/
theorem filter_runOnTask (hline : doc.lineSkips = tree.lineSkips) {placed : TreePath × Task}
    (htask : ∀ f : Finding, placed.2.isSkipped f.rule f.tag =
      (placed.2.tags.contains Task.skipTag ||
        (tree.root?.bind fun root => root.at? placed.1).any fun node => f.isNamed node.comments))
    (rule : Rule) :
    (rule.runOnTask doc placed.2).filter (fun f => !f.isLineSuppressed doc.lineSkips) =
      ((rule.rawOnTask doc placed).filter fun raw => !raw.isSilenced doc tree scanned).map
        RawFinding.finding := by
  obtain ⟨path, task⟩ := placed
  have hfound : ∀ found : List Finding,
      (found.filter fun f => !task.isSkipped f.rule f.tag).filter
          (fun f => !f.isLineSuppressed doc.lineSkips) =
        ((found.map (.mk (.task path task))).filter fun raw =>
          !raw.isSilenced doc tree scanned).map RawFinding.finding := by
    intro found
    rw [map_filter_mk, List.filter_filter]
    congr 1
    funext f
    simp only [htask, hline, RawFinding.isSilenced, Bool.not_or]
  unfold Rule.runOnTask Rule.rawOnTask
  dsimp only
  cases rule.onTask doc task with
  | pass => rfl
  | violation =>
      -- a plain violation is silenced as a finding that is tagged with the name of its rule
      refine Eq.trans ?_ (hfound [rule.info.violation doc task.line])
      cases hskipped : task.isSkipped rule.info.id rule.info.id <;>
        simp [hskipped, RuleInfo.violation, RuleInfo.finding]
  | findings found => exact hfound found

/-- **Linting, stage by stage.**  If the lists that are attached say what the comments say, linting
leaves out exactly the findings that the comments silence. -/
theorem lint_eq_filter_raw (hline : doc.lineSkips = tree.lineSkips)
    (hwhole : ∀ f : Finding, f.isListed doc.data.silenced =
      (doc.kind.isFlat && doc.data.isMapping && f.isNamed scanned))
    (hplaced : doc.placedTasks.map Prod.snd = doc.tasks)
    (htask : ∀ placed ∈ doc.placedTasks, ∀ f : Finding, placed.2.isSkipped f.rule f.tag =
      (placed.2.tags.contains Task.skipTag ||
        (tree.root?.bind fun root => root.at? placed.1).any fun node => f.isNamed node.comments))
    (rules : List Rule) :
    doc.lint rules =
      ((doc.raw rules).filter fun raw => !raw.isSilenced doc tree scanned).map
        RawFinding.finding := by
  rw [Document.lint, Document.raw, List.filter_flatMap, List.filter_flatMap, List.map_flatMap]
  congr 1
  funext rule
  rw [Rule.run, Rule.raw, ← hplaced, List.flatMap_map]
  simp only [List.filter_append, List.map_append, List.filter_flatMap, List.map_flatMap]
  rw [filter_runOnDocument hline hwhole]
  congr 1
  · congr 2
    funext play
    exact filter_onPlay hline rule play
  · rw [List.flatMap_def, List.flatMap_def]
    congr 1
    exact List.map_congr_left fun placed hmem => filter_runOnTask hline (htask placed hmem) rule

end Filtering

/-! ### From a text to its findings -/

/-- The kinds of files that hold tasks. -/
def FileKind.hasTasks : FileKind → Bool
  | .tasks | .handlers | .playbook => true
  | _ => false

theorem tasks_of_not_hasTasks {doc : Document} (h : doc.kind.hasTasks = false) :
    doc.tasks = [] := by
  unfold Document.tasks
  cases hkind : doc.kind with
  | tasks | handlers | playbook =>
      rw [hkind] at h
      exact nomatch h
  | _ => rfl

/-- **What is silenced for the tasks of a document**: each has the tag of tasks that no rule is to
look at, or its path leads to comments with the same content in which a marker names the finding. -/
theorem isSkipped_placedTasks (path : Path) (override : Option FileKind) {source : List Char}
    {events : List Yaml.Event} {root : Node} (hone : Node.documents events = [root]) :
    let tree := CommentTree.ofEvents source events
    let doc := Document.ofTrees path override root tree
    (doc.kind.hasTasks = true → (doc.data.taskBlocks doc.kind).isSome = true) →
      doc.placedTasks.map Prod.snd = doc.tasks ∧
      ∀ placed ∈ doc.placedTasks, doc.data.at? placed.1 = some placed.2.node ∧
        ∃ comment, (tree.root?.bind fun root => root.at? placed.1) = some comment ∧
          comment.erase = placed.2.node.erase ∧
          ∀ f : Finding, placed.2.isSkipped f.rule f.tag =
            (placed.2.tags.contains Task.skipTag || f.isNamed comment.comments) := by
  intro tree doc htasks
  obtain ⟨comments, htree, hsame⟩ := CommentTree.exists_root hone source
  have hroot := Node.unlisted_of_documents_eq hone
  cases hown : doc.data.taskBlocks doc.kind with
  | none =>
      have hkind : doc.kind.hasTasks = false := by
        rw [hown] at htasks
        exact Bool.eq_false_iff.mpr fun h => nomatch htasks h
      rw [Document.placedTasks, hown, tasks_of_not_hasTasks hkind]
      exact ⟨rfl, nofun⟩
  | some own =>
      obtain ⟨hplaced, hmem⟩ := placedTasks_of_taskBlocks hown
      have hlists := listsOnTasks_of_taskBlocks hroot htree hsame hown
      refine ⟨hplaced, fun placed hin => ?_⟩
      obtain ⟨flat, hflatMem, hpath, hnode, hmapping⟩ := hmem placed hin
      obtain ⟨comment, hcomment, herase, hskipped⟩ :=
        isSkipped_of_listsOnTasks hlists hflatMem hnode hmapping
      rw [hpath, htree]
      exact ⟨hnode ▸ hlists.leads flat hflatMem, comment, hcomment, herase, hskipped⟩

/-- **Suppression is exact.**  Take a document that is read from a text with one YAML document in
it, such that its task lists can be found if it is a kind of file that holds tasks. Then linting
reports, in order, exactly the raw findings that the author did not silence:

* a finding about a task is silenced if the task has the tag `skip_ansible_lint`, or if a marker in
  the comments at the path of the task names its rule or its tag;
* a finding about the whole of a mapping in a file without tasks is silenced if a marker anywhere in
  the text names its rule or its tag;
* any finding is silenced if the line map of the comments silences its line for it.

The tasks are those of the document, in order; the path of each leads to it, and leads in the
comments to a node with the same content. -/
theorem lint_reports_unsilenced {path : Path} {override : Option FileKind} {text : String}
    {doc : Document} {notices : List Notice} {events : List Yaml.Event}
    (htext : Document.ofText path override text = .ok (doc, notices))
    (hread : Yaml.Event.read text = .ok events) (hone : (Node.documents events).length = 1)
    (htasks : doc.kind.hasTasks = true → (doc.data.taskBlocks doc.kind).isSome = true)
    (rules : List Rule) :
    let tree := CommentTree.ofEvents text.toList events
    let scanned := CommentTree.scanned text.toList events
    doc.lint rules =
        ((doc.raw rules).filter fun raw => !raw.isSilenced doc tree scanned).map
          RawFinding.finding ∧
      doc.placedTasks.map Prod.snd = doc.tasks ∧
      ∀ placed ∈ doc.placedTasks, doc.data.at? placed.1 = some placed.2.node ∧
        ∃ comment, (tree.root?.bind fun root => root.at? placed.1) = some comment ∧
          comment.erase = placed.2.node.erase := by
  intro tree scanned
  rw [Document.ofText, hread] at htext
  cases htext
  have hroot := Node.documents_eq_singleton hone
  obtain ⟨hplaced, hskipped⟩ := isSkipped_placedTasks path override hroot htasks
  refine ⟨?_, hplaced, fun placed hin => ?_⟩
  · refine lint_eq_filter_raw rfl (isListed_silenced hroot _) hplaced (fun placed hin f => ?_) rules
    obtain ⟨-, comment, hcomment, -, hskip⟩ := hskipped placed hin
    rw [hskip, hcomment]
    rfl
  · obtain ⟨hleads, comment, hcomment, herase, -⟩ := hskipped placed hin
    exact ⟨hleads, comment, hcomment, herase⟩

theorem eq_ok_of_isSome {result : Except ε (List α)} (h : result.toOption.isSome = true) :
    result = .ok (result.toOption.getD []) := by
  cases result with
  | ok value => rfl
  | error e => exact nomatch h

/-- The theorem applies to two tasks that violate a rule: a marker in the first one silences it, on
another line than the one that the finding is about. -/
theorem lint_reports_unsilenced_pair :
    let text := "- ping:\n  when: x  # noqa: fqcn\n- ping:\n"
    let rule := Rule.ofTasks ⟨"fqcn", "", .warning, [], []⟩ fun _ _ => .violation
    ∃ doc notices, Document.ofText ⟨"main.yml"⟩ (some .tasks) text = .ok (doc, notices) ∧
      (doc.raw [rule]).map (fun raw => raw.finding.line) = [1, 3] ∧
      (doc.lint [rule]).map Finding.line = [3] := by
  intro text rule
  let events := (Yaml.Event.read text).toOption.getD []
  let tree := CommentTree.ofEvents text.toList events
  let doc := Document.ofTrees ⟨"main.yml"⟩ (some .tasks) (Node.ofEvents events) tree
  have hread : Yaml.Event.read text = .ok events := eq_ok_of_isSome (by decide +kernel)
  have htext : Document.ofText ⟨"main.yml"⟩ (some .tasks) text =
      .ok (doc,
        Document.noticesOfTrees ⟨"main.yml"⟩ (some .tasks) (Node.ofEvents events) tree) := by
    rw [Document.ofText, hread]
    rfl
  obtain ⟨hlint, -, -⟩ :=
    lint_reports_unsilenced htext hread (by decide +kernel) (fun _ => by decide +kernel) [rule]
  refine ⟨doc, _, htext, by decide +kernel, ?_⟩
  rw [hlint]
  decide +kernel

end PlaybookLint
