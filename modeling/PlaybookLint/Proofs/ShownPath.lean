import PlaybookLint.Proofs.Isolation

/-!
# The path that findings show

A document has a path so that findings can show it, and for nothing else: what the rules say, what
is silenced and what is reported of it stays the same if the document is shown at another path. All
that a path decides has been decided when the document was made, namely its kind and its role.

## Main definitions

* `Document.shownAt`, `Finding.shownAt` - the same at another path.
* `Rule.IgnoresPath` - what a rule says does not depend on the path.

## Main statements

* `Rule.ignoresPath_of_mem_enabled` - the rules that run ignore the path.
* `Document.lint_shownAt` - linting ignores the path.
* `Config.report_shownAt` - so does reporting what was found in one file.
-/

namespace PlaybookLint

/-- The finding, shown at another path. -/
def Finding.shownAt (path : Path) (f : Finding) : Finding :=
  { f with file := path }

/-- The document, shown at another path. -/
def Document.shownAt (path : Path) (doc : Document) : Document :=
  { doc with path := path }

/-- The error, shown at another path. -/
def SchemaError.shownAt (path : Path) (e : SchemaError) : SchemaError :=
  { e with file := path }

/-- What is said about a task, shown at another path. -/
def Verdict.shownAt (path : Path) : Verdict → Verdict
  | .findings found => .findings (found.map (Finding.shownAt path))
  | verdict => verdict

@[simp] theorem Finding.isListed_shownAt (path : Path) (f : Finding) (identifiers : List String) :
    (f.shownAt path).isListed identifiers = f.isListed identifiers := rfl

@[simp] theorem Document.plays_shownAt (path : Path) (doc : Document) :
    (doc.shownAt path).plays = doc.plays := rfl

@[simp] theorem Document.tasks_shownAt (path : Path) (doc : Document) :
    (doc.shownAt path).tasks = doc.tasks := rfl

theorem filter_map_shownAt {keep : Finding → Bool} {path : Path}
    (h : ∀ f, keep (f.shownAt path) = keep f) (found : List Finding) :
    (found.map (Finding.shownAt path)).filter keep =
      (found.filter keep).map (Finding.shownAt path) := by
  rw [List.filter_map]
  exact congrArg (List.map _) (List.filter_congr fun f _ => h f)

namespace Rule

/-- What the rule says does not depend on the path of the document. -/
structure IgnoresPath (rule : Rule) : Prop where
  onDocument (path : Path) (doc : Document) : rule.onDocument (doc.shownAt path) =
    match rule.onDocument doc with
    | .ok found => .ok (found.map (Finding.shownAt path))
    | .error e => .error (e.shownAt path)
  onPlay (path : Path) (doc : Document) (play : Node) :
    rule.onPlay (doc.shownAt path) play = (rule.onPlay doc play).map (Finding.shownAt path)
  onTask (path : Path) (doc : Document) (task : Task) :
    rule.onTask (doc.shownAt path) task = (rule.onTask doc task).shownAt path

/-- A rule that looks at tasks only has to ignore the path there. -/
theorem ignoresPath_ofTasks {info : RuleInfo} {onTask : Document → Task → Verdict}
    (h : ∀ path doc task, onTask (doc.shownAt path) task = (onTask doc task).shownAt path) :
    (ofTasks info onTask).IgnoresPath :=
  ⟨fun _ _ => rfl, fun _ _ _ => rfl, h⟩

/-- **Whatever path a document is shown at**, a rule is let through to say the same of it. -/
theorem IgnoresPath.run {rule : Rule} (h : rule.IgnoresPath) (path : Path) (doc : Document) :
    rule.run (doc.shownAt path) = (rule.run doc).map (Finding.shownAt path) := by
  have hdocument : rule.runOnDocument (doc.shownAt path) =
      (rule.runOnDocument doc).map (Finding.shownAt path) := by
    rw [runOnDocument, runOnDocument, h.onDocument]
    cases rule.onDocument doc with
    | ok found => exact filter_map_shownAt (fun _ => rfl) found
    | error e => rfl
  have htask : ∀ task, rule.runOnTask (doc.shownAt path) task =
      (rule.runOnTask doc task).map (Finding.shownAt path) := by
    intro task
    rw [runOnTask, runOnTask, h.onTask]
    cases rule.onTask doc task with
    | pass => rfl
    | violation =>
        dsimp only [Verdict.shownAt]
        split <;> rfl
    | findings found => exact filter_map_shownAt (fun _ => rfl) found
  rw [Rule.run, Rule.run, hdocument, funext (h.onPlay path doc), funext htask,
    Document.plays_shownAt, Document.tasks_shownAt, List.map_append, List.map_append,
    List.map_flatMap, List.map_flatMap]

/-! ### The rules, one by one -/

theorem Handler.ignoresPath : Handler.rule.IgnoresPath :=
  ignoresPath_ofTasks fun path doc task => by
    unfold Handler.onTask
    split <;> rfl

theorem LatestPackage.ignoresPath : LatestPackage.rule.IgnoresPath :=
  ignoresPath_ofTasks fun path doc task => by
    unfold LatestPackage.onTask
    split <;> rfl

theorem QualifiedName.ignoresPath : QualifiedName.rule.IgnoresPath :=
  ignoresPath_ofTasks fun path doc task => by
    unfold QualifiedName.onTask
    split
    · rfl
    · cases problem? task.action.written <;> rfl

namespace Naming

variable (naming : Naming) (path : Path) (doc : Document)

theorem onKeys_shownAt (role : Option RolePrefix) (source : Node → String) (vars : Option Node) :
    naming.onKeys (doc.shownAt path) role source vars =
      (naming.onKeys doc role source vars).map (Finding.shownAt path) := by
  rw [onKeys, onKeys, List.map_filterMap]
  refine congrArg (List.filterMap · _) (funext fun entry => ?_)
  rw [Option.map_map]
  rfl

theorem onRole_shownAt (role : Node) :
    naming.onRole (doc.shownAt path) role =
      (naming.onRole doc role).map (Finding.shownAt path) := by
  rw [onRole, onRole, List.map_append, onKeys_shownAt, List.map_filterMap]
  refine congrArg (· ++ _) (congrArg (List.filterMap · _) (funext fun entry => ?_))
  rw [Option.map_map]
  rfl

theorem onFacts_shownAt (task : Task) :
    naming.onFacts (doc.shownAt path) task =
      (naming.onFacts doc task).map (Finding.shownAt path) := by
  rw [onFacts, onFacts]
  split
  · rw [List.map_filterMap]
    refine congrArg (List.filterMap · _) (funext fun arg => ?_)
    rw [Option.map_map]
    rfl
  · rfl

theorem onRegister_shownAt (task : Task) :
    naming.onRegister (doc.shownAt path) task =
      (naming.onRegister doc task).map (Finding.shownAt path) := by
  rw [onRegister, onRegister]
  cases (task.get? "register").filter Tree.isTruthy with
  | none => rfl
  | some name =>
      dsimp only
      rw [← Option.toList_map, Option.map_map]
      rfl

theorem ignoresPath : naming.rule.IgnoresPath where
  onDocument path doc := by
    change naming.onDocument (doc.shownAt path) = match naming.onDocument doc with
      | .ok found => .ok (found.map (Finding.shownAt path))
      | .error e => .error (e.shownAt path)
    have hkeys := naming.onKeys_shownAt path doc (roleOfDocument doc) varsSource (some doc.data)
    rw [onDocument, onDocument]
    by_cases hvars : (decide (doc.kind ≠ .vars) || !doc.data.isTruthy) = true
    · rw [if_pos hvars]
      exact if_pos hvars
    · rw [if_neg hvars]
      refine (if_neg hvars).trans ?_
      by_cases hmapping : (!doc.data.isMapping) = true
      · rw [if_pos hmapping]
        exact if_pos hmapping
      · rw [if_neg hmapping]
        exact (if_neg hmapping).trans (congrArg Except.ok hkeys)
  onPlay path doc play := by
    change naming.onPlay (doc.shownAt path) play =
      (naming.onPlay doc play).map (Finding.shownAt path)
    rw [onPlay, onPlay, onKeys_shownAt, funext (naming.onRole_shownAt path doc), List.map_append,
      List.map_flatMap]
  onTask path doc task := by
    change naming.onTask (doc.shownAt path) task = (naming.onTask doc task).shownAt path
    rw [onTask, onTask, onKeys_shownAt, onFacts_shownAt, onRegister_shownAt, ← List.map_append,
      ← List.map_append]
    rw [List.isEmpty_map]
    split <;> rfl

end Naming

/-- **The rules that run ignore the path.** -/
theorem ignoresPath_of_mem_enabled {config : RuleConfig} {rules : List Rule}
    (hrules : enabled config = .ok rules) : ∀ rule ∈ rules, rule.IgnoresPath := by
  intro rule hrule
  obtain ((rfl | rfl) | rfl) | ⟨naming, rfl⟩ := eq_of_mem_enabled hrules hrule
  · exact QualifiedName.ignoresPath
  · exact Handler.ignoresPath
  · exact LatestPackage.ignoresPath
  · exact naming.ignoresPath

end Rule

/-- **Linting ignores the path.** -/
theorem Document.lint_shownAt {config : RuleConfig} {rules : List Rule}
    (hrules : Rule.enabled config = .ok rules) (path : Path) (doc : Document) :
    (doc.shownAt path).lint rules = (doc.lint rules).map (Finding.shownAt path) := by
  have hrun : (rules.flatMap fun rule => rule.run (doc.shownAt path)) =
      (rules.flatMap fun rule => rule.run doc).map (Finding.shownAt path) := by
    rw [List.map_flatMap]
    exact List.flatMap_congr fun rule hrule =>
      (Rule.ignoresPath_of_mem_enabled hrules rule hrule).run path doc
  rw [lint, lint, hrun]
  exact filter_map_shownAt (fun _ => rfl) _

/-! ### What is reported of one file -/

namespace Finding

variable {file path : Path}

theorem compare_shownAt {f g : Finding} (hf : f.file = file) (hg : g.file = file) :
    (f.shownAt path).compare (g.shownAt path) = f.compare g := by
  have hself : ∀ p : Path, p.compare p = .eq := fun p => Path.compare_eq_eq_iff.mpr rfl
  rw [Finding.compare, Finding.compare, hf, hg, hself file]
  exact congrArg (Ordering.then · _) (hself path)

theorem sort_shownAt {found : List Finding} (h : ∀ f ∈ found, f.file = file) :
    sort (found.map (shownAt path)) = (sort found).map (shownAt path) :=
  (List.map_mergeSort fun f hf g hg => by rw [compare_shownAt (h f hf) (h g hg)]).symm

theorem dedupFrom_shownAt {previous : Option Finding} {found : List Finding}
    (hprevious : ∀ p ∈ previous, p.file = file) (h : ∀ f ∈ found, f.file = file) :
    dedupFrom (previous.map (shownAt path)) (found.map (shownAt path)) =
      (dedupFrom previous found).map (shownAt path) := by
  induction found generalizing previous with
  | nil => rfl
  | cons f found ih =>
      obtain ⟨hf, hfound⟩ := List.forall_mem_cons.mp h
      have hsame : ((previous.map (shownAt path)).any fun p => p.compare (f.shownAt path) = .eq) =
          previous.any fun p => p.compare f = .eq := by
        cases previous with
        | none => rfl
        | some p => simp [compare_shownAt (hprevious p rfl) hf]
      have hnext : ∀ p ∈ some f, p.file = file := by
        rintro p ⟨⟩
        exact hf
      rw [List.map_cons, dedupFrom, dedupFrom, hsame]
      split
      · exact ih hprevious hfound
      · exact congrArg (_ :: ·) (ih hnext hfound)

/-- Arranging the findings of one file ignores the path that they show. -/
theorem arrange_shownAt {found : List Finding} (h : ∀ f ∈ found, f.file = file) :
    arrange (found.map (shownAt path)) = (arrange found).map (shownAt path) := by
  have hsorted : ∀ f ∈ sort found, f.file = file :=
    fun f hf => h f ((sort_perm found).mem_iff.mp hf)
  have hnone : ∀ f ∈ (none : Option Finding), f.file = file := nofun
  rw [arrange, sort_shownAt h]
  exact dedupFrom_shownAt hnone hsorted

end Finding

namespace Config

variable (config : Config) (path : Path)

theorem downgrade_shownAt (f : Finding) :
    config.downgrade (f.shownAt path) = (config.downgrade f).shownAt path := by
  rw [downgrade, downgrade, Finding.isListed_shownAt]
  split <;> rfl

theorem applyLists_shownAt (found : List Finding) :
    config.applyLists (found.map (Finding.shownAt path)) =
      (config.applyLists found).map (Finding.shownAt path) := by
  rw [applyLists, applyLists, filter_map_shownAt fun _ => rfl, List.map_map, List.map_map]
  exact List.map_congr_left fun f _ => config.downgrade_shownAt path f

/-- **Reporting what was found in one file ignores the path** that is shown. -/
theorem report_shownAt {file : Path} {found : List Finding} (h : ∀ f ∈ found, f.file = file) :
    config.report (found.map (Finding.shownAt path)) =
      (config.report found).map (Finding.shownAt path) := by
  have happlied : ∀ f ∈ config.applyLists found, f.file = file := by
    intro f hf
    obtain ⟨g, hg, -, rfl⟩ := mem_applyLists_iff.mp hf
    exact (config.file_downgrade g).trans (h g hg)
  rw [report, applyLists_shownAt, Finding.arrange_shownAt happlied, report]

end Config

end PlaybookLint
