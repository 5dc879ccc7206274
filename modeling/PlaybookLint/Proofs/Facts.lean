import PlaybookLint.Proofs.NameChecks
import PlaybookLint.Proofs.Renaming

/-!
# Names of facts

Variables are defined in files, and tasks can set them with `set_fact`. In both places the names are
the keys of a mapping, and they go through the same checks. But the arguments of a task are known by
their names only, so that an entry whose key is no string is no argument: its key is reported in a
file of variables and not in a task.

## Main definitions

* `OwnEntries`, `ExtraEntries` - the mappings in which a task writes its arguments.
* `SetsFacts` - a task that sets the variables of some entries.
* `Naming.flagged` - the entries with a key that has a fault, each with the fault.
* `namesFact` - an entry that sets a variable, if it is an argument of `set_fact`.

## Main statements

* `OwnEntries.ofTask_eq` - the action of a task that writes its arguments in mappings.
* `Naming.onDocument_eq_flagged`, `Naming.onFacts_eq_flagged` - what is reported in both places.
* `facts_judged_alike_iff` - the same is reported in both places exactly if all keys are strings.
-/

namespace PlaybookLint

/-! ### Arguments in mappings -/

/-- The mapping in which a task writes arguments where it names its module; no entries if it names
nothing but the module there. -/
inductive OwnEntries (name : String) (task : Node) : List (Node × Node) → Prop
  /-- The module is a key over a mapping. -/
  | mapping {key : Node} {line : Nat} {note : Option (List String)} {entries : List (Node × Node)}
      (source : Action.moduleSource? task = some (key, .mapping line note entries))
      (key_eq : key.string? = some name) : OwnEntries name task entries
  /-- The module is a key over nothing. -/
  | nothing {key value : Node} (source : Action.moduleSource? task = some (key, value))
      (key_eq : key.string? = some name) (value_eq : value.isNull = true) : OwnEntries name task []
  /-- The module stands in a mapping with the arguments, under `action` or `local_action`. -/
  | described {line : Nat} {note : Option (List String)} {value : Node}
      {entries : List (Node × Node)} (noContainer : task.isContainer = false)
      (description : (task.get? "action").orElse (fun _ => task.get? "local_action") =
        some (.mapping line note entries))
      (module_eq : Tree.lastValue? entries "module" = some value)
      (value_eq : value.string? = some name) :
      OwnEntries name task (entries.filter fun e => e.1.string? ≠ some "module")
  /-- The module is the only word of a text, under `action` or `local_action`. -/
  | word {value : Node} {own : String} {gap rest : List Char} (noContainer : task.isContainer = false)
      (description : (task.get? "action").orElse (fun _ => task.get? "local_action") = some value)
      (value_eq : value.string? = some own) (own_eq : own.toList = gap ++ (name.toList ++ rest))
      (ne_empty : name ≠ "") (noBlank : ∀ c ∈ name.toList, Text.isBlank c = false)
      (blank : ∀ c ∈ gap ++ rest, Text.isBlank c = true) : OwnEntries name task []

/-- The mapping under the `args` of a task; no entries if there is none. -/
inductive ExtraEntries (task : Node) : List (Node × Node) → Prop
  | none (args_eq : task.get? "args" = none) : ExtraEntries task []
  | mapping {line : Nat} {note : Option (List String)} {entries : List (Node × Node)}
      (args_eq : task.get? "args" = some (.mapping line note entries)) : ExtraEntries task entries

/-- A task sets the variables of some entries: they are all its arguments, and its module is
`set_fact`, with or without a namespace. -/
structure SetsFacts (entries : List (Node × Node)) (task : Node) : Prop where
  isMapping : task.isMapping = true
  split : ∃ name own extra, Action.shortName name = "set_fact" ∧ OwnEntries name task own ∧
    ExtraEntries task extra ∧ entries = own ++ extra

/-- The arguments that some entries give. -/
def argsOfEntries (entries : List (Node × Node)) : List (String × Node) :=
  entries.filterMap fun (key, value) => key.string?.map (·, value)

section Arguments

variable {name : String} {task : Node} {entries own extra : List (Node × Node)}

theorem argsOfEntries_append :
    argsOfEntries (own ++ extra) = argsOfEntries own ++ argsOfEntries extra :=
  List.filterMap_append

theorem OwnEntries.ofTask_eq (h : OwnEntries name task own) :
    Action.ofTask task = .ofModule name (argsOfEntries own ++ Action.extraArgs task) := by
  cases h with
  | mapping hsource hkey => exact Action.ofTask_of_moduleSource? hsource hkey
  | nothing hsource hkey hvalue =>
      rw [Action.ofTask_of_moduleSource? hsource hkey, Action.argsOfValue_of_isNull hvalue]
      rfl
  | @described line note _ _ hcontainer hdescription hmodule hvalue =>
      exact Action.ofTask_of_description hcontainer hdescription
        (Action.ofDescription_mapping hmodule hvalue task.line line note)
  | @word value own gap rest hcontainer hdescription hvalue hown hne hname hblank =>
      obtain ⟨hgap, hrest⟩ := List.forall_mem_append.mp hblank
      have hend : Text.trimEnd rest = [] := by
        rw [Text.trimEnd, List.dropWhile_eq_nil_iff.mpr (by simpa using hrest), List.reverse_nil]
      have htext := Action.ofDescription_text hvalue hown hne hname hgap
        (fun c hc => hrest c (List.mem_of_mem_head? hc)) task.line
      rw [hend] at htext
      exact Action.ofTask_of_description hcontainer hdescription htext

theorem ExtraEntries.extraArgs_eq (h : ExtraEntries task extra) :
    Action.extraArgs task = argsOfEntries extra := by
  cases h with
  | none hargs | mapping hargs =>
      rw [Action.extraArgs, hargs]
      rfl

theorem SetsFacts.action (h : SetsFacts entries task) :
    (Action.ofTask task).module = "set_fact" ∧ (Action.ofTask task).args = argsOfEntries entries := by
  obtain ⟨name, own, extra, hname, hown, hextra, rfl⟩ := h.split
  rw [hown.ofTask_eq, hextra.extraArgs_eq, ← argsOfEntries_append]
  exact ⟨hname, rfl⟩

/-- A task whose first key names the module, with a mapping under it. -/
theorem SetsFacts.of_first_key {key : Node} {line line' : Nat} {note note' : Option (List String)}
    {rest : List (Node × Node)} (hkey : key.string? = some name)
    (hkeyword : isTaskKeyword name = false) (hname : Action.shortName name = "set_fact")
    (htask : task = .mapping line note ((key, .mapping line' note' own) :: rest))
    (hcontainer : task.isContainer = false) (haction : task.get? "action" = none)
    (hlocal : task.get? "local_action" = none) (hextra : ExtraEntries task extra) :
    SetsFacts (own ++ extra) task := by
  subst htask
  have hnames := Action.namesModule_of_string? hkey hkeyword (.mapping line' note' own)
  have hsource := Action.moduleSource?_eq_some_iff.mpr
    ⟨hcontainer, haction, hlocal, List.find?_cons_of_pos hnames⟩
  exact ⟨rfl, name, own, extra, hname, .mapping hsource hkey, hextra, rfl⟩

end Arguments

/-- The text of a string is its value. -/
theorem Tree.text_of_string? {t : Tree α} {value : String} (h : t.string? = some value) :
    t.text = value := by
  cases t with
  | scalar line note own =>
      cases own with
      | string own => exact Option.some.inj h
      | _ => exact nomatch h
  | sequence | mapping => exact nomatch h

namespace Rule.Naming

/-! ### Entries with faults -/

/-- An entry that sets a variable, if it is an argument of `set_fact`. -/
def namesFact (e : Node × Node) : Bool :=
  e.1.string?.any fun name => !isFactOption name

/-- An entry whose key is no option of `set_fact`; it need not be a string. -/
def namesNoOption (e : Node × Node) : Bool :=
  !e.1.string?.any isFactOption

/-- The entries with a key that has a fault, each with the fault. -/
def flagged (naming : Naming) (role : Option RolePrefix) (entries : List (Node × Node)) :
    List ((Node × Node) × NameFault) :=
  entries.filterMap fun e => (naming.keyFault? role e.1).map (e, ·)

/-- The words that say that a fact was found. -/
def factSource (key : Node) : String :=
  " (set_fact: " ++ key.text ++ ")"

variable {naming : Naming} {doc : Document} {entries : List (Node × Node)}

theorem namesFact_iff (e : Node × Node) :
    namesFact e = true ↔ namesNoOption e = true ∧ e.1.isString = true := by
  rw [namesFact, namesNoOption, Tree.isString]
  cases e.1.string? <;> simp

/-- A key that is no string has a fault. -/
theorem mem_flagged_of_not_isString {role : Option RolePrefix} {e : Node × Node} (h : e ∈ entries)
    (hstring : e.1.isString = false) : (e, .nonString) ∈ naming.flagged role entries := by
  have hkey : e.1.string? = none := by simpa [Tree.isString] using hstring
  refine List.mem_filterMap.mpr ⟨e, h, ?_⟩
  rw [keyFault?, hkey]
  rfl

/-- **In a file of variables** all entries are looked at. -/
theorem onDocument_eq_flagged {line : Nat} {note : Option (List String)} (hkind : doc.kind = .vars)
    (hdata : doc.data = .mapping line note entries) :
    naming.onDocument doc = .ok ((naming.flagged (roleOfDocument doc) entries).map fun f =>
      finding doc f.1.1.line f.2 (varsSource f.1.1)) := by
  have hfound : naming.onKeys doc (roleOfDocument doc) varsSource (some doc.data) =
      (naming.flagged (roleOfDocument doc) entries).map fun f =>
        finding doc f.1.1.line f.2 (varsSource f.1.1) := by
    rw [onKeys, flagged, List.map_filterMap, hdata]
    refine List.filterMap_congr fun e _ => ?_
    obtain ⟨key, value⟩ := e
    rw [Option.map_map]
    rfl
  rw [onDocument, hkind, hfound, hdata]
  cases entries with
  | nil => rfl
  | cons e entries => rfl

/-- **In a task** the entries that set variables are looked at. -/
theorem onFacts_eq_flagged {task : Task} (hmodule : task.action.module = "set_fact")
    (hargs : task.action.args = argsOfEntries entries) :
    naming.onFacts doc task =
      (naming.flagged (roleOfDocument doc) (entries.filter namesFact)).map fun f =>
        finding doc task.line f.2 (factSource f.1.1) := by
  rw [onFacts, if_pos hmodule, hargs, argsOfEntries, List.filter_filterMap, List.filterMap_filterMap,
    flagged, List.map_filterMap, List.filterMap_filter]
  refine List.filterMap_congr fun e _ => ?_
  obtain ⟨key, value⟩ := e
  cases hkey : key.string? with
  | none => simp [namesFact, hkey]
  | some name =>
      have htext : key.text = name := Tree.text_of_string? hkey
      cases hoption : isFactOption name <;>
        simp [namesFact, keyFault?, factSource, hkey, hoption, htext, Option.filter,
          Function.comp_def]

/-- What is reported of facts is a part of what is reported of the task. -/
theorem exists_findings_of_mem_onFacts {task : Task} {f : Finding}
    (h : f ∈ naming.onFacts doc task) :
    ∃ found, naming.onTask doc task = .findings found ∧ f ∈ found := by
  have hmem : f ∈ naming.onKeys doc (roleOfTask task) varsSource (task.get? "vars") ++
      naming.onFacts doc task ++ naming.onRegister doc task :=
    List.mem_append_left _ (List.mem_append_right _ h)
  refine ⟨_, ?_, hmem⟩
  rw [onTask, if_neg]
  rw [List.isEmpty_iff]
  exact List.ne_nil_of_mem hmem

/-- **Which entries are judged alike.**  Take a mapping with keys of any kind, once as the content
of a file of variables and once as the arguments of a task that sets facts, with the same role or
without any. Both times the entries go through the same checks. But in the task those are left out
whose key is no string, and each of them is a fault. So the same is reported of all entries but the
options of `set_fact`, exactly if all keys are strings. -/
theorem facts_judged_alike_iff (naming : Naming) {doc doc' : Document} (hkind : doc.kind = .vars)
    {line : Nat} {note : Option (List String)} {entries : List (Node × Node)}
    (hdata : doc.data = .mapping line note entries) (hrole : doc'.role = doc.role) {node : Node}
    (hfacts : SetsFacts entries node) (isHandler : Bool) :
    let flagged := naming.flagged (doc.role.map .ofRole)
    ∃ task, Task.ofNode? isHandler node = some task ∧
      naming.onDocument doc = .ok ((flagged entries).map fun f =>
        finding doc f.1.1.line f.2 (varsSource f.1.1)) ∧
      naming.onFacts doc' task = ((flagged (entries.filter namesFact)).map fun f =>
        finding doc' task.line f.2 (factSource f.1.1)) ∧
      (∀ f ∈ naming.onFacts doc' task, ∃ found, naming.onTask doc' task = .findings found ∧
        f ∈ found) ∧
      (flagged (entries.filter namesFact) = flagged (entries.filter namesNoOption) ↔
        ∀ e ∈ entries, e.1.isString = true) := by
  intro flagged
  obtain ⟨hmodule, hargs⟩ := hfacts.action
  have howner : roleOfDocument doc' = roleOfDocument doc := by
    rw [roleOfDocument, roleOfDocument, hrole]
  have hfound : naming.onFacts doc' ⟨node, .ofTask node, isHandler⟩ = _ :=
    onFacts_eq_flagged hmodule hargs
  rw [howner] at hfound
  refine ⟨_, if_pos hfacts.isMapping, onDocument_eq_flagged hkind hdata, hfound,
    fun f hf => exists_findings_of_mem_onFacts hf, ?_⟩
  constructor
  · intro hsame e he
    by_contra hnot
    have hstring : e.1.isString = false := Bool.eq_false_iff.mpr hnot
    have hoption : namesNoOption e = true := by
      have hkey : e.1.string? = none := by simpa [Tree.isString] using hstring
      rw [namesNoOption, hkey]
      rfl
    -- the fault of the key is among those of the one list, but not of the other one
    have hmem : (e, .nonString) ∈ flagged (entries.filter namesFact) :=
      hsame ▸ mem_flagged_of_not_isString (List.mem_filter.mpr ⟨he, hoption⟩) hstring
    obtain ⟨own, hown, heq⟩ := List.mem_filterMap.mp hmem
    obtain ⟨fault, -, hpair⟩ := Option.map_eq_some_iff.mp heq
    cases hpair
    exact hnot ((namesFact_iff e).mp (List.mem_filter.mp hown).2).2
  · intro hall
    have hfilter : entries.filter namesFact = entries.filter namesNoOption := by
      refine List.filter_congr fun e he => ?_
      rw [Bool.eq_iff_iff, namesFact_iff, and_iff_left (hall e he)]
    rw [hfilter]

/-- The theorem applies to a task of the role `web` that writes some arguments under its module and
others under `args`. A keyword and a name with an umlaut are reported in both places; a number is
reported in the file of variables only. -/
theorem facts_judged_alike_web :
    let entry (value : Scalar) : Node × Node := (.scalar 2 none value, .scalar 2 none .null)
    let own := [entry (.string "ansible_user"), entry (.string "class")]
    let extra := [entry (.number "80"), entry (.string "größe")]
    let vars : Document :=
      ⟨⟨"roles/web/vars/main.yml"⟩, .vars, some "web", .mapping 1 none (own ++ extra), .empty⟩
    let tasks : Document :=
      ⟨⟨"roles/web/tasks/main.yml"⟩, .tasks, some "web", .sequence 1 none [], .empty⟩
    let key (name : String) : Node := .scalar 1 none (.string name)
    let node : Node := .mapping 1 none [(key "ansible.builtin.set_fact", .mapping 2 none own),
      (key "args", .mapping 2 none extra)]
    let naming := (ofPattern? defaultPattern).getD default
    ∃ task, Task.ofNode? false node = some task ∧
      (naming.onDocument vars).toOption.map (List.map Finding.tag) =
        some ["var-naming[no-keyword]", "var-naming[non-string]", "var-naming[non-ascii]"] ∧
      (naming.onFacts tasks task).map Finding.tag =
        ["var-naming[no-keyword]", "var-naming[non-ascii]"] := by
  intro entry own extra vars tasks key node naming
  have hkeyword : isTaskKeyword "ansible.builtin.set_fact" = false := by
    simp [isTaskKeyword, taskKeywords]
  have hfacts : SetsFacts (own ++ extra) node :=
    .of_first_key rfl hkeyword (by decide) rfl (by decide) rfl rfl (.mapping rfl)
  have hdata : vars.data = .mapping 1 none (own ++ extra) := rfl
  have hrole : tasks.role = vars.role := rfl
  obtain ⟨task, htask, hvars, hfound, -, -⟩ :=
    facts_judged_alike_iff naming rfl hdata hrole hfacts false
  obtain rfl : ⟨node, .ofTask node, false⟩ = task := Option.some.inj htask
  have hfilter : (own ++ extra).filter namesFact = own ++ [entry (.string "größe")] := by
    simp [own, extra, entry, namesFact, isFactOption, Tree.string?,
      Tree.scalar?, Scalar.string?]
  refine ⟨_, htask, ?_, ?_⟩
  · rw [hvars]
    decide
  · rw [hfound, List.map_map, hfilter]
    decide

/-- A key that is no string is reported in a file of variables. The same mapping under `set_fact` is
not reported at all. -/
theorem fact_without_name :
    let entries : List (Node × Node) :=
      [(.scalar 2 none (.number "80"), .scalar 2 none (.string "web"))]
    let vars : Document :=
      ⟨⟨"vars/main.yml"⟩, .vars, none, .mapping 2 none entries, .empty⟩
    let key : Node := .scalar 1 none (.string "ansible.builtin.set_fact")
    let naming := (ofPattern? defaultPattern).getD default
    let node : Node := .mapping 1 none [(key, .mapping 2 none entries)]
    (naming.onDocument vars).toOption.map (List.map Finding.tag) =
        some ["var-naming[non-string]"] ∧
      (Task.ofNode? false node).map (naming.onTask default) = some .pass := by
  intro entries vars key naming node
  have hkeyword : isTaskKeyword "ansible.builtin.set_fact" = false := by
    simp [isTaskKeyword, taskKeywords]
  have hfacts : SetsFacts (entries ++ []) node :=
    .of_first_key rfl hkeyword (by decide) rfl (by decide) rfl rfl (.none rfl)
  obtain ⟨hmodule, hargs⟩ := hfacts.action
  have hfound : naming.onFacts default ⟨node, .ofTask node, false⟩ = [] :=
    (onFacts_eq_flagged hmodule hargs).trans rfl
  refine ⟨by decide, ?_⟩
  show some (naming.onTask default ⟨node, .ofTask node, false⟩) = some .pass
  rw [onTask, hfound]
  rfl

end Rule.Naming

end PlaybookLint
