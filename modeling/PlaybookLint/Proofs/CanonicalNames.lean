import PlaybookLint.Lint
import PlaybookLint.Proofs.Containers
import PlaybookLint.Proofs.NameChecks
import PlaybookLint.Proofs.Renaming
import PlaybookLint.Rule.Tasks

/-!
# Calling modules by their full names

A module that every installation has is to be called by its full name. Whoever follows this advice
changes one word of a task, and the word is looked at by other rules too: they ask for the module
without its namespace, for its arguments, and for keys of the task that are no modules. None of that
changes, so that the advice can be followed without another rule having its say.

## Main definitions

* `canonicalName`, `legacyName` - the full name of such a module, and its old one.
* `Task.SameButName` - tasks that differ in how the module is written.
* `Rule.Agrees` - a rule says the same about two tasks.

## Main statements

* `problem?_eq_none_iff` - the names of modules that are not reported.
* `Rule.Naming.onTask_congr` - names are checked without looking at how the module is written.
* `Renamed.sameButName` - a task in which the module got its full name.
* `full_name_safe` - the advice can be followed.
-/

namespace PlaybookLint

namespace Rule.QualifiedName

/-! ### Names of modules -/

/-- The full name of a module that every installation has. -/
def canonicalName (module : String) : String :=
  "ansible.builtin." ++ module

/-- The old name of such a module. -/
def legacyName (module : String) : String :=
  "ansible.legacy." ++ module

variable {m name : String}

theorem toList_canonicalName : (canonicalName m).toList = "ansible.builtin.".toList ++ m.toList :=
  String.toList_append

theorem toList_legacyName : (legacyName m).toList = "ansible.legacy.".toList ++ m.toList :=
  String.toList_append

theorem legacyName_ne_canonicalName {m m' : String} : canonicalName m ≠ legacyName m' := by
  intro h
  have hlist := congrArg String.toList h
  rw [toList_canonicalName, toList_legacyName] at hlist
  -- the names differ in the first letter after `ansible.`
  exact absurd (congrArg (fun cs => cs[8]?) hlist) (by simp)

/-- The modules that every installation has and the keywords consist of characters between the
underscore and the last small letter, and no word is both. -/
theorem builtinModules_check :
    ((builtinModules ++ taskKeywords).all fun word =>
      word != "" && word.toList.all fun c => 95 ≤ c.toNat && c.toNat ≤ 122) = true ∧
      (builtinModules.all fun word => !isTaskKeyword word) = true := by
  decide +kernel

/-- So they are plain words. -/
theorem plain_of_mem {word : String} (h : word ∈ builtinModules ++ taskKeywords) :
    word ≠ "" ∧ ∀ c ∈ word.toList, Text.isBlank c = false ∧ c ≠ '.' := by
  have hword := List.all_eq_true.mp builtinModules_check.1 word h
  rw [Bool.and_eq_true, bne_iff_ne, List.all_eq_true] at hword
  refine ⟨hword.1, fun c hc => ?_⟩
  have hrange : 95 ≤ c.toNat ∧ c.toNat ≤ 122 := by simpa using hword.2 c hc
  have hother : c ≠ ' ' ∧ c ≠ '.' := by
    constructor <;> rintro rfl <;> exact absurd hrange (by decide)
  refine ⟨?_, hother.2⟩
  simp only [Text.isBlank, Bool.or_eq_false_iff, Bool.and_eq_false_iff, decide_eq_false_iff_not,
    beq_eq_false_iff_ne, ne_eq, hother.1, not_false_eq_true, and_true]
  omega

theorem dot_not_mem_of_mem {word : String} (h : word ∈ builtinModules ++ taskKeywords) :
    '.' ∉ word.toList :=
  fun hmem => ((plain_of_mem h).2 _ hmem).2 rfl

theorem isTaskKeyword_of_mem_builtinModules (h : m ∈ builtinModules) : isTaskKeyword m = false := by
  simpa using List.all_eq_true.mp builtinModules_check.2 m h

/-- A name with a dot in it that begins with `a` is no keyword. -/
theorem isTaskKeyword_of_dotted {cs : List Char} (h : name.toList = 'a' :: cs) (hdot : '.' ∈ cs) :
    isTaskKeyword name = false := by
  have hnot : taskKeywords.contains name = false := by
    rw [← Bool.not_eq_true, List.contains_iff_mem]
    intro hmem
    exact dot_not_mem_of_mem (List.mem_append_right _ hmem) (h ▸ List.mem_cons_of_mem _ hdot)
  have hwith : name.startsWith "with_" = false := by
    rw [String.startsWith_string_eq_false_iff, h]
    simp
  have hunder : name.startsWith "__" = false := by
    rw [String.startsWith_string_eq_false_iff, h]
    simp
  rw [isTaskKeyword, hnot, hwith, hunder]
  rfl

/-- The full name and the old name of a module have the same start, but for some letters. -/
theorem spellableModule_of_dotted {cs : List Char} (hm : m ∈ builtinModules)
    (hname : name.toList = 'a' :: cs ++ '.' :: m.toList)
    (hcs : cs.any Text.isBlank = false) :
    SpellableModule name ∧ Action.shortName name = m := by
  obtain ⟨-, hchars⟩ := plain_of_mem (List.mem_append_left _ hm)
  have hnodot := dot_not_mem_of_mem (List.mem_append_left _ hm)
  refine ⟨⟨?_, ?_, ?_⟩, ?_⟩
  · rintro rfl
    exact nomatch hname
  · rw [hname]
    intro c hc
    simp only [List.cons_append, List.mem_cons, List.mem_append] at hc
    rcases hc with rfl | hc | rfl | hc
    · rfl
    · simpa using List.any_eq_false.mp hcs c hc
    · rfl
    · exact (hchars c hc).1
  · exact isTaskKeyword_of_dotted hname (List.mem_append_right _ List.mem_cons_self)
  · rw [Action.shortName, hname, Text.afterLast_append_cons hnodot, String.ofList_toList]

theorem spellableModule_of_mem (hm : m ∈ builtinModules) :
    SpellableModule m ∧ Action.shortName m = m := by
  obtain ⟨hne, hchars⟩ := plain_of_mem (List.mem_append_left _ hm)
  have hnodot := dot_not_mem_of_mem (List.mem_append_left _ hm)
  refine ⟨⟨hne, fun c hc => (hchars c hc).1, isTaskKeyword_of_mem_builtinModules hm⟩, ?_⟩
  rw [Action.shortName, Text.afterLast_eq_self hnodot, String.ofList_toList]

theorem spellableModule_canonicalName (hm : m ∈ builtinModules) :
    SpellableModule (canonicalName m) ∧ Action.shortName (canonicalName m) = m := by
  have hname : (canonicalName m).toList = 'a' :: "nsible.builtin".toList ++ '.' :: m.toList :=
    toList_canonicalName.trans (by simp)
  exact spellableModule_of_dotted hm hname (by decide)

theorem spellableModule_legacyName (hm : m ∈ builtinModules) :
    SpellableModule (legacyName m) ∧ Action.shortName (legacyName m) = m := by
  have hname : (legacyName m).toList = 'a' :: "nsible.legacy".toList ++ '.' :: m.toList :=
    toList_legacyName.trans (by simp)
  exact spellableModule_of_dotted hm hname (by decide)

/-! ### Which names are reported -/

theorem legacyModule?_eq_some_iff :
    legacyModule? name = some m ↔ m ∈ builtinModules ∧ name = legacyName m := by
  rw [legacyModule?, Option.filter_eq_some_iff, Option.map_eq_some_iff, List.contains_iff_mem,
    and_comm]
  refine and_congr_right fun _ => ?_
  constructor
  · rintro ⟨rest, hrest, rfl⟩
    rw [← String.toList_inj, toList_legacyName, Text.dropPrefix?_eq_some_iff.mp hrest]
    exact congrArg (legacyStart ++ ·) String.toList_ofList.symm
  · rintro rfl
    exact ⟨m.toList, Text.dropPrefix?_eq_some_iff.mpr toList_legacyName, String.ofList_toList⟩

theorem legacyModule?_eq_none_iff :
    legacyModule? name = none ↔ ¬ ∃ m ∈ builtinModules, name = legacyName m := by
  rw [Option.eq_none_iff_forall_ne_some]
  simp only [ne_eq, legacyModule?_eq_some_iff, not_exists]

theorem isQualified_of_mem (hm : name ∈ builtinModules) : isQualified name = false := by
  have hnodot := dot_not_mem_of_mem (List.mem_append_left _ hm)
  rw [isQualified, List.count_eq_zero_of_not_mem hnodot]
  rfl

/-- **Which names are not reported**: those with two dots, but for the old names. -/
theorem problem?_eq_none_iff : problem? name = none ↔
    2 ≤ name.toList.count '.' ∧ ¬ ∃ m ∈ builtinModules, name = legacyName m := by
  have hqualified : isQualified name = true ↔ 2 ≤ name.toList.count '.' := decide_eq_true_iff
  rw [← hqualified, ← legacyModule?_eq_none_iff, problem?]
  cases hbuiltin : builtinModules.contains name with
  | true =>
      rw [isQualified_of_mem (List.contains_iff_mem.mp hbuiltin)]
      simp
  | false =>
      cases legacyModule? name with
      | some short => simp
      | none => cases isQualified name <;> simp

theorem problem?_of_mem (hm : m ∈ builtinModules) :
    ∃ message, problem? m = some ("action-core", message) :=
  ⟨_, by rw [problem?, if_pos (List.contains_iff_mem.mpr hm)]⟩

theorem problem?_legacyName (hm : m ∈ builtinModules) :
    ∃ message, problem? (legacyName m) = some ("canonical", message) := by
  have hnot : ¬ builtinModules.contains (legacyName m) = true := by
    intro hmem
    refine dot_not_mem_of_mem (List.mem_append_left _ (List.contains_iff_mem.mp hmem)) ?_
    rw [toList_legacyName]
    exact List.mem_append_left _ (by decide)
  rw [problem?, if_neg hnot, legacyModule?_eq_some_iff.mpr ⟨hm, rfl⟩]
  exact ⟨_, rfl⟩

theorem problem?_canonicalName : problem? (canonicalName m) = none := by
  refine problem?_eq_none_iff.mpr ⟨?_, fun ⟨m', _, hname⟩ => legacyName_ne_canonicalName hname⟩
  rw [toList_canonicalName, List.count_append]
  have hstart : "ansible.builtin.".toList.count '.' = 2 := by decide
  omega

variable {task : Task}

theorem onTask_of_problem? (hcontainer : task.isContainer = false)
    (hne : task.action.written ≠ "") (doc : Document) :
    onTask doc task = match problem? task.action.written with
      | some (check, message) => .findings [info.finding doc task.line (info.tag check) message]
      | none => .pass := by
  rw [onTask, hcontainer, decide_eq_false hne]
  rfl

/-- **Which tasks pass**, of those that run a module: the ones that call it by a name that is not
reported. -/
theorem onTask_eq_pass_iff (hcontainer : task.isContainer = false)
    (hne : task.action.written ≠ "") (doc : Document) :
    onTask doc task = .pass ↔ 2 ≤ task.action.written.toList.count '.' ∧
      ¬ ∃ m ∈ builtinModules, task.action.written = legacyName m := by
  rw [onTask_of_problem? hcontainer hne, ← problem?_eq_none_iff]
  cases problem? task.action.written <;> simp

end Rule.QualifiedName

/-! ### Tasks that differ in a name -/

/-- Tasks that differ in nothing that a rule looks at but in how the module is written. -/
structure Task.SameButName (task task' : Task) : Prop where
  isHandler : task'.isHandler = task.isHandler
  line : task'.line = task.line
  note : task'.node.note = task.node.note
  module : task'.action.module = task.action.module
  args : task'.action.args = task.action.args
  get? : ∀ key ∈ ["when", "vars", "register", "tags"], task'.get? key = task.get? key

/-- A rule says the same about two tasks, and silences the same of it, in documents that have the
same path and belong to the same role. -/
def Rule.Agrees (rule : Rule) (task task' : Task) : Prop :=
  ∀ doc doc' : Document, doc'.path = doc.path → doc'.role = doc.role →
    rule.onTask doc' task' = rule.onTask doc task ∧
      rule.runOnTask doc' task' = rule.runOnTask doc task

section SameButName

variable {doc doc' : Document} {task task' : Task}

theorem Task.SameButName.isSkipped_eq (h : task.SameButName task') (rule tag : String) :
    task'.isSkipped rule tag = task.isSkipped rule tag := by
  simp only [Task.isSkipped, Task.tags, Tree.silenced, h.note, h.get? "tags" (by decide)]

namespace Rule

theorem runOnTask_congr {rule : Rule} (h : task.SameButName task') (hpath : doc'.path = doc.path)
    (hverdict : rule.onTask doc' task' = rule.onTask doc task) :
    rule.runOnTask doc' task' = rule.runOnTask doc task := by
  simp only [runOnTask, hverdict, h.isSkipped_eq, RuleInfo.violation, RuleInfo.finding, hpath,
    h.line]

theorem agrees_of_onTask_eq {rule : Rule} (h : task.SameButName task')
    (hverdict : ∀ doc doc' : Document, doc'.path = doc.path → doc'.role = doc.role →
      rule.onTask doc' task' = rule.onTask doc task) : rule.Agrees task task' :=
  fun doc doc' hpath hrole =>
    have hsame := hverdict doc doc' hpath hrole
    ⟨hsame, runOnTask_congr h hpath hsame⟩

theorem agrees_handler (h : task.SameButName task') : Handler.rule.Agrees task task' := by
  refine agrees_of_onTask_eq h fun doc doc' _ _ => ?_
  show Handler.onTask doc' task' = Handler.onTask doc task
  have hcondition : Handler.condition? task' = Handler.condition? task := by
    rw [Handler.condition?, Handler.condition?, h.get? "when" (by decide)]
  rw [Handler.onTask, Handler.onTask, h.isHandler, hcondition]

theorem agrees_latestPackage (h : task.SameButName task') :
    LatestPackage.rule.Agrees task task' := by
  refine agrees_of_onTask_eq h fun doc doc' _ _ => ?_
  show LatestPackage.onTask doc' task' = LatestPackage.onTask doc task
  have hlatest : LatestPackage.installsLatest task'.action =
      LatestPackage.installsLatest task.action := by
    have hargs : task'.action.arg? = task.action.arg? := by
      funext name
      rw [Action.arg?, Action.arg?, h.args]
    have htruthy : task'.action.argIsTruthy = task.action.argIsTruthy := by
      funext name
      rw [Action.argIsTruthy, Action.argIsTruthy, hargs]
    rw [LatestPackage.installsLatest, LatestPackage.installsLatest, h.module, hargs, htruthy]
  rw [LatestPackage.onTask, LatestPackage.onTask, hlatest]

/-- **Names are checked** without looking at how the module is written. -/
theorem Naming.onTask_congr (naming : Naming) (h : task.SameButName task')
    (hpath : doc'.path = doc.path) (hrole : doc'.role = doc.role) :
    naming.onTask doc' task' = naming.onTask doc task := by
  have hfinding : finding doc' = finding doc := by
    funext line fault source
    rw [finding, finding, RuleInfo.finding, RuleInfo.finding, hpath]
  have howner : roleOfDocument doc' = roleOfDocument doc := by
    rw [roleOfDocument, roleOfDocument, hrole]
  have hvars : roleOfTask task' = roleOfTask task := by
    simp only [roleOfTask, Action.arg?, h.module, h.args]
  have hfacts : naming.onFacts doc' task' = naming.onFacts doc task := by
    simp only [onFacts, h.module, h.args, h.line, hfinding, howner]
  have hregister : naming.onRegister doc' task' = naming.onRegister doc task := by
    simp only [onRegister, h.get? "register" (by decide), h.line, hfinding, howner]
  simp only [onTask, onKeys, h.get? "vars" (by decide), hvars, hfacts, hregister, hfinding]

theorem agrees_naming (naming : Naming) (h : task.SameButName task') :
    naming.rule.Agrees task task' :=
  agrees_of_onTask_eq h fun _ _ hpath hrole => naming.onTask_congr h hpath hrole

end Rule

end SameButName

/-! ### Following the advice -/

open Rule.QualifiedName

variable {isHandler : Bool} {node after : Node} {task : Task} {m old new : String}

/-- A task in which the module got another name without another module. -/
theorem Renamed.sameButName (hold : SpellableModule old) (hnew : SpellableModule new)
    (hshort : Action.shortName new = Action.shortName old) (h : Renamed old new node after)
    (hcontainer : node.isContainer = false) (isHandler : Bool) :
    ∃ args, Action.ofTask after = .ofModule new args ∧
      Task.SameButName ⟨node, .ofTask node, isHandler⟩ ⟨after, .ofTask after, isHandler⟩ := by
  obtain ⟨args, htask, hafter⟩ := h.ofTask_eq hold hnew hcontainer
  refine ⟨args, hafter, rfl, h.line_eq, h.note_eq, ?_, ?_, fun key hkey => ?_⟩
  · rw [htask, hafter]
    exact hshort
  · rw [htask, hafter]
    rfl
  · have hkeys : ∀ key ∈ ["when", "vars", "register", "tags"],
        isTaskKeyword key = true ∧ key ∉ ["action", "local_action"] := by decide
    exact h.get?_eq hold hnew (hkeys key hkey).1 (hkeys key hkey).2

/-- A task that calls a module that every installation has contains no others. -/
theorem not_isContainer_of_shortName (htask : Task.ofNode? isHandler node = some task)
    (hm : m ∈ builtinModules) (hshort : Action.shortName task.action.written = m) :
    task.isContainer = false := by
  have hname : Action.shortName Action.containerName ∉ builtinModules := by
    rw [show Action.shortName Action.containerName = "block/always/rescue" by decide]
    simp [builtinModules]
  rw [← Bool.not_eq_true]
  intro hcontainer
  rw [(exempt_of_isContainer htask hcontainer).1] at hshort
  exact hname (hshort ▸ hm)

/-- The finding about a name that is reported. -/
theorem onTask_of_problem?_eq_some {check : String} (hcontainer : task.isContainer = false)
    (hne : task.action.written ≠ "")
    (hproblem : ∃ message, problem? task.action.written = some (check, message)) (doc : Document) :
    ∃ f, onTask doc task = .findings [f] ∧ f.tag = "fqcn[" ++ check ++ "]" ∧
      f.line = task.line := by
  obtain ⟨message, hproblem⟩ := hproblem
  have hopening : info.id ++ "[" = "fqcn[" := by decide
  rw [onTask_of_problem? hcontainer hne, hproblem, ← hopening]
  exact ⟨_, rfl, rfl, rfl⟩

/-- **The advice can be followed.**  Take any task that calls a module that every installation has
by its short name, or by its old one. The task is reported for that. It can be changed in one place,
wherever it names its module, so that the full name stands there; and however it is changed in this
way, it is not reported any more, and all other rules that look at tasks say the same about it as
before. Of the tasks that call a module, those pass whose name has two dots and is not an old one. -/
theorem full_name_safe :
    (∀ isHandler node task, Task.ofNode? isHandler node = some task → ∀ m ∈ builtinModules,
      ∀ check, (task.action.written = m ∧ check = "action-core" ∨
        task.action.written = legacyName m ∧ check = "canonical") →
      (∀ doc, ∃ f, onTask doc task = .findings [f] ∧ f.tag = "fqcn[" ++ check ++ "]" ∧
        f.line = task.line) ∧
      (∃ after, Renamed task.action.written (canonicalName m) node after) ∧
      ∀ after, Renamed task.action.written (canonicalName m) node after →
        ∃ task', Task.ofNode? isHandler after = some task' ∧
          task'.action.written = canonicalName m ∧ task'.line = task.line ∧
          (∀ doc, onTask doc task' = .pass) ∧
          Rule.Handler.rule.Agrees task task' ∧ Rule.LatestPackage.rule.Agrees task task' ∧
          ∀ naming : Rule.Naming, naming.rule.Agrees task task') ∧
    ∀ doc task, task.isContainer = false → task.action.written ≠ "" →
      (onTask doc task = .pass ↔ 2 ≤ task.action.written.toList.count '.' ∧
        ¬ ∃ m ∈ builtinModules, task.action.written = legacyName m) := by
  refine ⟨fun isHandler node task htask m hm check hwritten => ?_,
    fun doc task hcontainer hne => onTask_eq_pass_iff hcontainer hne doc⟩
  obtain ⟨⟨hold, hshort⟩, hproblem⟩ :
      (SpellableModule task.action.written ∧ Action.shortName task.action.written = m) ∧
        ∃ message, problem? task.action.written = some (check, message) := by
    rcases hwritten with ⟨hname, rfl⟩ | ⟨hname, rfl⟩ <;> rw [hname]
    · exact ⟨spellableModule_of_mem hm, problem?_of_mem hm⟩
    · exact ⟨spellableModule_legacyName hm, problem?_legacyName hm⟩
  obtain ⟨hnew, hnewShort⟩ := spellableModule_canonicalName hm
  have hcontainer := not_isContainer_of_shortName htask hm hshort
  rw [Task.ofNode?] at htask
  split at htask
  next hmapping =>
    cases htask
    refine ⟨onTask_of_problem?_eq_some hcontainer hold.ne_empty hproblem,
      Renamed.exists_of_written hold hmapping hcontainer rfl _, fun after hafter => ?_⟩
    obtain ⟨args, haction, hsame⟩ := hafter.sameButName hold hnew (hnewShort.trans hshort.symm)
      hcontainer isHandler
    have hname : (Action.ofTask after).written = canonicalName m := by rw [haction]; rfl
    let task' : Task := ⟨after, .ofTask after, isHandler⟩
    have hrenamed : task'.isContainer = false :=
      (hafter.isContainer_eq hold hnew).trans hcontainer
    have hne : task'.action.written ≠ "" := hname ▸ hnew.ne_empty
    refine ⟨task', if_pos hafter.isMapping.2, hname, hsame.line, fun doc => ?_,
      Rule.agrees_handler hsame, Rule.agrees_latestPackage hsame,
      fun naming => Rule.agrees_naming naming hsame⟩
    rw [onTask_of_problem? hrenamed hne, show task'.action.written = canonicalName m from hname,
      problem?_canonicalName]
  next => cases htask

/-- The theorem applies to a task that calls a package manager by its old name in a text. With the
full name it is not reported for that any more, and it still installs the latest version and puts
its result into a variable with a bad name. -/
theorem full_name_safe_yum :
    let string (text : String) : Node := .string 1 text
    let node (name : String) : Node :=
      .mapping 1 none [(string "local_action", string (name ++ " name=httpd state=latest")),
        (string "register", string "Result")]
    let naming := (Rule.Naming.ofPattern? Rule.Naming.defaultPattern).getD default
    let verdicts (task : Task) : List Verdict :=
      [Rule.LatestPackage.rule.onTask default task, naming.rule.onTask default task]
    ∃ task task', Task.ofNode? false (node (legacyName "yum")) = some task ∧
      Task.ofNode? false (node (canonicalName "yum")) = some task' ∧
      (∃ f, onTask default task = .findings [f] ∧ f.tag = "fqcn[canonical]") ∧
      onTask default task' = .pass ∧ verdicts task' = verdicts task ∧
      Rule.LatestPackage.onTask default task = .violation := by
  intro string node naming verdicts
  have hafter : Renamed (legacyName "yum") (canonicalName "yum") (node (legacyName "yum"))
      (node (canonicalName "yum")) := by
    have hdescription : RenamedDescription (legacyName "yum") (canonicalName "yum")
        (string (legacyName "yum" ++ " name=httpd state=latest")) _ :=
      @RenamedDescription.text _ _ _ _ [] " name=httpd state=latest".toList rfl
        String.toList_append nofun (by simp [Text.isBlank])
    exact @Renamed.described _ _ 1 none [] [(string "register", string "Result")]
      (string "local_action") _ _ _ rfl (.inr ⟨rfl, rfl⟩) (by decide) hdescription
  have hwritten : (Action.ofTask (node (legacyName "yum"))).written = legacyName "yum" := by
    decide
  obtain ⟨hreported, -, hfollowed⟩ := full_name_safe.1 false (node (legacyName "yum")) _ rfl "yum"
    (by decide) "canonical" (.inr ⟨hwritten, rfl⟩)
  obtain ⟨task', htask', -, -, hpass, -, hlatest, hnaming⟩ := hfollowed _ (hwritten ▸ hafter)
  obtain ⟨f, hf, htag, -⟩ := hreported default
  refine ⟨_, task', rfl, htask', ⟨f, hf, htag⟩, hpass default, ?_, ?_⟩
  · exact congrArg₂ (fun a b => [a, b]) (hlatest default default rfl rfl).1
      (hnaming naming default default rfl rfl).1
  · decide

end PlaybookLint
