import Mathlib.Data.List.Nodup
import PlaybookLint.Lint

/-!
# Where findings come from

Every rule keeps to its own: what it says is about the document that it is given, bears its name and
its severity, and is tagged with its name or with one of its checks. The tags of all rules, together
with those of the findings about files as such, make a register in which no tag stands twice. So the
tag of a finding determines its rule and its severity.

## Main definitions

* `RuleInfo.Issues` - a finding is a rule's own.
* `Rule.Says` - a rule says something, before anything is silenced.
* `Rule.KeepsToItself` - all that a rule says is its own.
* `Tag.register` - all tags, with their rules and severities.

## Main statements

* `Rule.keepsToItself_of_mem_enabled` - rules that run keep to themselves.
* `Document.isRegistered_of_mem_lint` - what linting reports is in the register.
* `Tag.eq_of_mem_register` - a tag has one rule and one severity.
* `Document.findings_catalogued` - what comes up about a document can be looked up in the catalog.
-/

namespace PlaybookLint

/-! ### Findings of a rule -/

namespace RuleInfo

/-- A finding is the rule's own. -/
structure Issues (info : RuleInfo) (doc : Document) (f : Finding) : Prop where
  file : f.file = doc.path
  rule : f.rule = info.id
  severity : f.severity = info.severity
  tag : (info.describe? f.tag).isSome = true

variable {info : RuleInfo}

theorem issues_finding {tag : String} (htag : (info.describe? tag).isSome = true) (doc : Document)
    (line : Nat) (message : String) : info.Issues doc (info.finding doc line tag message) :=
  ⟨rfl, rfl, rfl, htag⟩

theorem describe?_id : info.describe? info.id = some info.description :=
  if_pos rfl

theorem issues_violation (doc : Document) (line : Nat) :
    info.Issues doc (info.violation doc line) :=
  issues_finding (by rw [describe?_id]; rfl) doc line info.description

/-- What a rule describes is the rule itself and its checks. -/
theorem isSome_describe?_iff {tag : String} :
    (info.describe? tag).isSome = true ↔ tag = info.id ∨ tag ∈ info.checks.map Prod.fst := by
  rw [describe?]
  split
  · next hid => exact iff_of_true rfl (.inl hid)
  · next hid =>
      rw [or_iff_right hid, List.lookup_isSome_iff, List.mem_map]
      exact exists_congr fun check => and_congr_right fun _ => beq_iff_eq.trans eq_comm

end RuleInfo

namespace Rule

/-- A rule says something about a document, a play or a task that it is given, before anything is
silenced. Where a task violates the rule as a whole, it is said so. -/
inductive Says (rule : Rule) (doc : Document) : Finding → Prop where
  | onDocument {found : List Finding} {f : Finding} (hfound : rule.onDocument doc = .ok found)
      (hf : f ∈ found) : Says rule doc f
  | onPlay (play : Node) {f : Finding} (hf : f ∈ rule.onPlay doc play) : Says rule doc f
  | violation {task : Task} (hverdict : rule.onTask doc task = .violation) :
      Says rule doc (rule.info.violation doc task.line)
  | onTask {task : Task} {found : List Finding} {f : Finding}
      (hverdict : rule.onTask doc task = .findings found) (hf : f ∈ found) : Says rule doc f

/-- All that the rule says is its own. -/
structure KeepsToItself (rule : Rule) : Prop where
  onDocument {doc : Document} {found : List Finding} (h : rule.onDocument doc = .ok found) :
    ∀ f ∈ found, rule.info.Issues doc f
  onPlay (doc : Document) (play : Node) : ∀ f ∈ rule.onPlay doc play, rule.info.Issues doc f
  onTask {doc : Document} {task : Task} {found : List Finding}
    (h : rule.onTask doc task = .findings found) : ∀ f ∈ found, rule.info.Issues doc f

/-- A rule that looks at tasks only has to keep to itself there. -/
theorem keepsToItself_ofTasks {info : RuleInfo} {onTask : Document → Task → Verdict}
    (h : ∀ {doc task found}, onTask doc task = .findings found → ∀ f ∈ found, info.Issues doc f) :
    (ofTasks info onTask).KeepsToItself where
  onDocument hfound := by
    cases hfound
    exact nofun
  onPlay _ _ := nofun
  onTask := h

theorem KeepsToItself.issues_of_says {rule : Rule} (hrule : rule.KeepsToItself) {doc : Document}
    {f : Finding} (h : rule.Says doc f) : rule.info.Issues doc f := by
  cases h with
  | onDocument hfound hf => exact hrule.onDocument hfound f hf
  | onPlay play hf => exact hrule.onPlay doc play f hf
  | violation hverdict => exact RuleInfo.issues_violation doc _
  | onTask hverdict hf => exact hrule.onTask hverdict f hf

/-- **What a rule is let through to say** it says, or the document does not have the shape that its
kind promises. -/
theorem says_of_mem_run {rule : Rule} {doc : Document} {f : Finding} (hf : f ∈ rule.run doc) :
    rule.Says doc f ∨ ∃ e, rule.onDocument doc = .error e ∧ f = .schemaFailure doc e := by
  rw [Rule.run, List.mem_append, List.mem_append] at hf
  obtain (hdocument | hplay) | htask := hf
  · unfold runOnDocument at hdocument
    cases hfound : rule.onDocument doc with
    | ok found =>
        rw [hfound] at hdocument
        exact .inl (.onDocument hfound (List.mem_filter.mp hdocument).1)
    | error e =>
        rw [hfound] at hdocument
        exact .inr ⟨e, rfl, List.mem_singleton.mp hdocument⟩
  · obtain ⟨play, -, hf⟩ := List.mem_flatMap.mp hplay
    exact .inl (.onPlay play hf)
  · obtain ⟨task, -, hf⟩ := List.mem_flatMap.mp htask
    unfold runOnTask at hf
    cases hverdict : rule.onTask doc task with
    | pass =>
        rw [hverdict] at hf
        exact nomatch hf
    | violation =>
        rw [hverdict] at hf
        dsimp only at hf
        split at hf
        · exact nomatch hf
        · cases List.mem_singleton.mp hf
          exact .inl (.violation hverdict)
    | findings found =>
        rw [hverdict] at hf
        exact .inl (.onTask hverdict (List.mem_filter.mp hf).1)

/-! ### The rules, one by one -/

theorem Handler.keepsToItself : Handler.rule.KeepsToItself :=
  keepsToItself_ofTasks fun {doc task found} h => by
    unfold Handler.onTask at h
    split at h <;> exact nomatch h

theorem LatestPackage.keepsToItself : LatestPackage.rule.KeepsToItself :=
  keepsToItself_ofTasks fun {doc task found} h => by
    unfold LatestPackage.onTask at h
    split at h <;> exact nomatch h

namespace QualifiedName

/-- The checks that a name of a module can fail are checks of the rule. -/
theorem isSome_describe?_of_problem? {name check message : String}
    (h : problem? name = some (check, message)) :
    (info.describe? (info.tag check)).isSome = true := by
  unfold problem? at h
  split at h
  · cases h
    decide
  · split at h
    · cases h
      decide
    · split at h <;> cases h
      decide

theorem keepsToItself : rule.KeepsToItself :=
  keepsToItself_ofTasks fun {doc task found} h => by
    unfold onTask at h
    split at h
    · exact nomatch h
    · split at h
      · next check message hproblem =>
          cases h
          intro f hf
          cases List.mem_singleton.mp hf
          exact RuleInfo.issues_finding (isSome_describe?_of_problem? hproblem) ..
      · exact nomatch h

end QualifiedName

namespace Naming

variable {naming : Naming} {doc : Document} {f : Finding}

/-- Every fault fails a check of the rule. -/
theorem issues_of_fault? {fault? : Option NameFault} {line : Nat} {source : String}
    (hf : (fault?.map fun fault => finding doc line fault source) = some f) :
    info.Issues doc f := by
  obtain ⟨fault, -, rfl⟩ := Option.map_eq_some_iff.mp hf
  refine RuleInfo.issues_finding ?_ doc line _
  cases fault <;> rfl

theorem issues_of_mem_onKeys {role : Option RolePrefix} {source : Node → String}
    {vars : Option Node} (hf : f ∈ naming.onKeys doc role source vars) : info.Issues doc f := by
  obtain ⟨⟨key, value⟩, -, hfault⟩ := List.mem_filterMap.mp hf
  exact issues_of_fault? hfault

theorem issues_of_mem_onRole {role : Node} (hf : f ∈ naming.onRole doc role) :
    info.Issues doc f := by
  obtain hparameter | hvars := List.mem_append.mp hf
  · obtain ⟨⟨key, value⟩, -, hfault⟩ := List.mem_filterMap.mp hparameter
    exact issues_of_fault? hfault
  · exact issues_of_mem_onKeys hvars

theorem issues_of_mem_onPlay {play : Node} (hf : f ∈ naming.onPlay doc play) :
    info.Issues doc f := by
  obtain hvars | hroles := List.mem_append.mp hf
  · exact issues_of_mem_onKeys hvars
  · obtain ⟨role, -, hrole⟩ := List.mem_flatMap.mp hroles
    exact issues_of_mem_onRole hrole

theorem issues_of_mem_onFacts {task : Task} (hf : f ∈ naming.onFacts doc task) :
    info.Issues doc f := by
  unfold onFacts at hf
  split at hf
  · obtain ⟨⟨name, value⟩, -, hfault⟩ := List.mem_filterMap.mp hf
    exact issues_of_fault? hfault
  · exact nomatch hf

theorem issues_of_mem_onRegister {task : Task} (hf : f ∈ naming.onRegister doc task) :
    info.Issues doc f := by
  unfold onRegister at hf
  split at hf
  · exact issues_of_fault? (Option.mem_toList.mp hf)
  · exact nomatch hf

theorem keepsToItself (naming : Naming) : naming.rule.KeepsToItself where
  onDocument {doc found} h := by
    replace h : naming.onDocument doc = .ok found := h
    unfold onDocument at h
    split at h
    · cases h
      exact nofun
    · split at h <;> cases h
      exact fun f => issues_of_mem_onKeys
  onPlay _ _ _ := issues_of_mem_onPlay
  onTask {doc task found} h := by
    replace h : naming.onTask doc task = .findings found := h
    unfold onTask at h
    dsimp only at h
    split at h
    · exact nomatch h
    · cases h
      intro f hf
      obtain hf | hregister := List.mem_append.mp hf
      · obtain hvars | hfacts := List.mem_append.mp hf
        · exact issues_of_mem_onKeys hvars
        · exact issues_of_mem_onFacts hfacts
      · exact issues_of_mem_onRegister hregister

end Naming

/-- Only a file of variables can have a shape that the rule does not expect. -/
theorem Naming.kind_of_onDocument {naming : Naming} {doc : Document} {e : SchemaError}
    (h : naming.onDocument doc = .error e) : doc.kind = .vars := by
  unfold onDocument at h
  split at h
  · exact nomatch h
  · next hvars =>
      rw [Bool.or_eq_true, not_or, decide_eq_true_eq, not_not] at hvars
      exact hvars.1

theorem mem_enabledNaming {config : RuleConfig} {rules : List Rule}
    (hrules : enabledNaming config = .ok rules) {rule : Rule} (hrule : rule ∈ rules) :
    ∃ naming : Naming, rule = naming.rule := by
  unfold enabledNaming at hrules
  split at hrules
  · split at hrules
    · next naming _ =>
        cases hrules
        exact ⟨naming, List.mem_singleton.mp hrule⟩
    · exact nomatch hrules
  · cases hrules
    exact nomatch hrule

/-- The rules that a configuration asks for are among those that there are. -/
theorem eq_of_mem_enabled {config : RuleConfig} {rules : List Rule}
    (hrules : enabled config = .ok rules) {rule : Rule} (hrule : rule ∈ rules) :
    ((rule = QualifiedName.rule ∨ rule = Handler.rule) ∨ rule = LatestPackage.rule) ∨
      ∃ naming : Naming, rule = naming.rule := by
  unfold enabled at hrules
  cases hnaming : enabledNaming config with
  | error e =>
      rw [hnaming] at hrules
      exact nomatch hrules
  | ok namings =>
      rw [hnaming] at hrules
      cases hrules
      simp only [List.mem_append, List.mem_ite_nil_right, List.mem_singleton] at hrule
      obtain h | hrule := hrule
      · exact .inl (h.imp (Or.imp And.right And.right) And.right)
      · exact .inr (mem_enabledNaming hnaming hrule)

/-- **Rules that run keep to themselves**, and the catalog knows them. -/
theorem keepsToItself_of_mem_enabled {config : RuleConfig} {rules : List Rule}
    (hrules : enabled config = .ok rules) {rule : Rule} (hrule : rule ∈ rules) :
    rule.KeepsToItself ∧ rule.info ∈ catalog := by
  obtain ((rfl | rfl) | rfl) | ⟨naming, rfl⟩ := eq_of_mem_enabled hrules hrule
  · exact ⟨QualifiedName.keepsToItself, by decide⟩
  · exact ⟨Handler.keepsToItself, by decide⟩
  · exact ⟨LatestPackage.keepsToItself, by decide⟩
  · have hinfo : Naming.info ∈ catalog := by decide
    exact ⟨naming.keepsToItself, hinfo⟩

/-- Of the rules that run, only the one about names expects a shape, and this of variables. -/
theorem kind_of_onDocument {config : RuleConfig} {rules : List Rule}
    (hrules : enabled config = .ok rules) {rule : Rule} (hrule : rule ∈ rules) {doc : Document}
    {e : SchemaError} (h : rule.onDocument doc = .error e) : doc.kind = .vars := by
  obtain ((rfl | rfl) | rfl) | ⟨naming, rfl⟩ := eq_of_mem_enabled hrules hrule
  · exact nomatch h
  · exact nomatch h
  · exact nomatch h
  · exact Naming.kind_of_onDocument h

/-- A rule of the catalog is determined by its name. -/
theorem eq_of_mem_catalog {info other : RuleInfo} (hinfo : info ∈ catalog)
    (hother : other ∈ catalog) (hid : info.id = other.id) : info = other := by
  have hnodup : (catalog.map RuleInfo.id).Nodup := by decide
  exact List.inj_on_of_nodup_map hnodup hinfo hother hid

end Rule

/-! ### The register of tags -/

namespace Tag

/-- The tags of a rule, each with the name of the rule and its severity. -/
def ofRule (info : RuleInfo) : List (String × String × Severity) :=
  (info.id :: info.checks.map Prod.fst).map fun tag => (tag, info.id, info.severity)

/-- All tags, each with the rule and the severity of the findings that bear it. -/
def register : List (String × String × Severity) :=
  Rule.catalog.flatMap ofRule ++
    FileKind.all.map (fun kind => ("schema[" ++ kind.name ++ "]", "schema", .error)) ++
    [("load-failure", "load-failure", .error)]

theorem nodup_register : (register.map Prod.fst).Nodup := by
  decide

/-- **A tag has one rule and one severity.** -/
theorem eq_of_mem_register {tag : String} {entry other : String × Severity}
    (hentry : (tag, entry) ∈ register) (hother : (tag, other) ∈ register) : entry = other :=
  (Prod.mk.inj (List.inj_on_of_nodup_map nodup_register hentry hother rfl)).2

/-- The register has what the rules of the catalog describe. -/
theorem mem_register_of_describe? {info : RuleInfo} (hinfo : info ∈ Rule.catalog) {tag : String}
    (h : (info.describe? tag).isSome = true) : (tag, info.id, info.severity) ∈ register := by
  have htag : tag ∈ info.id :: info.checks.map Prod.fst :=
    List.mem_cons.mpr (RuleInfo.isSome_describe?_iff.mp h)
  have hrule : (tag, info.id, info.severity) ∈ ofRule info := List.mem_map_of_mem htag
  exact List.mem_append_left _
    (List.mem_append_left _ (List.mem_flatMap.mpr ⟨info, hinfo, hrule⟩))

end Tag

namespace Finding

/-- The register has the tag of the finding, with its rule and its severity. -/
def IsRegistered (f : Finding) : Prop :=
  (f.tag, f.rule, f.severity) ∈ Tag.register

theorem isRegistered_loadFailure (file : Path) : (loadFailure file).IsRegistered :=
  List.mem_append_right _ List.mem_cons_self

theorem isRegistered_schemaFailure (doc : Document) (e : SchemaError) :
    (schemaFailure doc e).IsRegistered := by
  have hkind : doc.kind ∈ FileKind.all := by cases doc.kind <;> decide
  exact List.mem_append_left _ (List.mem_append_right _ (List.mem_map_of_mem hkind))

theorem isRegistered_of_issues {info : RuleInfo} (hinfo : info ∈ Rule.catalog) {doc : Document}
    {f : Finding} (h : info.Issues doc f) : f.IsRegistered := by
  rw [IsRegistered, h.rule, h.severity]
  exact Tag.mem_register_of_describe? hinfo h.tag

/-- The tag of a finding determines its rule and its severity. -/
theorem IsRegistered.eq_of_tag {f g : Finding} (hf : f.IsRegistered) (hg : g.IsRegistered)
    (htag : f.tag = g.tag) : f.rule = g.rule ∧ f.severity = g.severity := by
  rw [IsRegistered, htag] at hf
  exact Prod.mk.inj (Tag.eq_of_mem_register hf hg)

/-- Findings that agree in path, line, tag and message agree in all. -/
theorem IsRegistered.eq {f g : Finding} (hf : f.IsRegistered) (hg : g.IsRegistered)
    (hfile : f.file = g.file) (hline : f.line = g.line) (htag : f.tag = g.tag)
    (hmessage : f.message = g.message) : f = g := by
  obtain ⟨hrule, hseverity⟩ := hf.eq_of_tag hg htag
  cases f
  cases g
  simp_all

end Finding

/-! ### What comes up about a document -/

namespace Document

variable {config : RuleConfig} {rules : List Rule} {doc : Document} {f : Finding}

/-- **What linting reports** a rule says, or variables do not have the shape that they should. -/
theorem says_of_mem_lint (hrules : Rule.enabled config = .ok rules) (hf : f ∈ doc.lint rules) :
    (∃ rule ∈ rules, rule.Says doc f) ∨ doc.kind = .vars ∧ ∃ e, f = .schemaFailure doc e := by
  obtain ⟨rule, hrule, hrun⟩ := List.mem_flatMap.mp (List.mem_filter.mp hf).1
  obtain hsays | ⟨e, he, rfl⟩ := Rule.says_of_mem_run hrun
  · exact .inl ⟨rule, hrule, hsays⟩
  · exact .inr ⟨Rule.kind_of_onDocument hrules hrule he, e, rfl⟩

/-- A finding comes up when rules run: one of them says it, or it is reported. -/
def Raises (doc : Document) (rules : List Rule) (f : Finding) : Prop :=
  (∃ rule ∈ rules, rule.Says doc f) ∨ f ∈ doc.lint rules

/-- **What comes up** is about the document, and registered. -/
theorem Raises.isRegistered (hrules : Rule.enabled config = .ok rules) (h : doc.Raises rules f) :
    f.file = doc.path ∧ f.IsRegistered := by
  have hsays : (∃ rule ∈ rules, rule.Says doc f) → f.file = doc.path ∧ f.IsRegistered := by
    rintro ⟨rule, hrule, h⟩
    obtain ⟨hkeeps, hcatalog⟩ := Rule.keepsToItself_of_mem_enabled hrules hrule
    have hissues := hkeeps.issues_of_says h
    exact ⟨hissues.file, Finding.isRegistered_of_issues hcatalog hissues⟩
  obtain h | h := h
  · exact hsays h
  · obtain h | ⟨-, e, rfl⟩ := says_of_mem_lint hrules h
    · exact hsays h
    · exact ⟨rfl, Finding.isRegistered_schemaFailure doc e⟩

theorem isRegistered_of_mem_lint (hrules : Rule.enabled config = .ok rules)
    (hf : f ∈ doc.lint rules) : f.file = doc.path ∧ f.IsRegistered :=
  Raises.isRegistered hrules (.inr hf)

/-- **What comes up about a document can be looked up in the catalog.**  Whatever is in a document,
and whichever rules run, a rule says only what is about the document, bears its name and its
severity, and has a tag that it describes: its name, or the tag of one of its checks. It is the only
rule of the catalog that describes this tag. What is reported some rule says just so, or else it is
the error that variables do not have the shape that they should. So the tag of a finding determines
its rule and its severity, from one document to another and however rules are configured. -/
theorem findings_catalogued (hrules : Rule.enabled config = .ok rules) (doc : Document) :
    (∀ rule ∈ rules, ∀ f, rule.Says doc f →
      f.file = doc.path ∧ f.rule = rule.info.id ∧ f.severity = rule.info.severity ∧
      (rule.info.describe? f.tag).isSome = true ∧
      (f.tag = rule.info.id ∨ f.tag ∈ rule.info.checks.map Prod.fst) ∧
      ∀ info, info ∈ Rule.catalog ∧ (info.describe? f.tag).isSome = true ↔ info = rule.info) ∧
    (∀ f ∈ doc.lint rules, (∃ rule ∈ rules, rule.Says doc f) ∨
      doc.kind = .vars ∧ f.severity = .error ∧ ∃ e, f = .schemaFailure doc e) ∧
    ∀ otherConfig otherRules, Rule.enabled otherConfig = .ok otherRules → ∀ (other : Document) f g,
      doc.Raises rules f → other.Raises otherRules g → f.tag = g.tag →
        f.rule = g.rule ∧ f.severity = g.severity := by
  refine ⟨fun rule hrule f hsays => ?_, fun f hf => ?_, ?_⟩
  · obtain ⟨hkeeps, hcatalog⟩ := Rule.keepsToItself_of_mem_enabled hrules hrule
    have hissues := hkeeps.issues_of_says hsays
    refine ⟨hissues.file, hissues.rule, hissues.severity, hissues.tag,
      RuleInfo.isSome_describe?_iff.mp hissues.tag, fun info => ⟨?_, ?_⟩⟩
    · rintro ⟨hinfo, hdescribes⟩
      have hentry := Tag.mem_register_of_describe? hinfo hdescribes
      have hown := Tag.mem_register_of_describe? hcatalog hissues.tag
      exact Rule.eq_of_mem_catalog hinfo hcatalog
        (Prod.mk.inj (Tag.eq_of_mem_register hentry hown)).1
    · rintro rfl
      exact ⟨hcatalog, hissues.tag⟩
  · obtain hsays | ⟨hkind, e, rfl⟩ := says_of_mem_lint hrules hf
    · exact .inl hsays
    · exact .inr ⟨hkind, rfl, e, rfl⟩
  · intro otherConfig otherRules hother other f g hf hg htag
    exact (hf.isRegistered hrules).2.eq_of_tag (hg.isRegistered hother).2 htag

/-- The theorem applies to a task whose module is called by a short name: what is reported is a
check that one rule has. -/
theorem findings_catalogued_ping :
    let config : RuleConfig := { RuleConfig.standard with naming := false }
    let doc := ((ofText ⟨"tasks/main.yml"⟩ none "- ping:\n").toOption.map Prod.fst).getD default
    ∃ rules, Rule.enabled config = .ok rules ∧
      ∃ f ∈ doc.lint rules, f.tag = "fqcn[action-core]" ∧ ∃ rule ∈ rules, rule.Says doc f ∧
        ∀ info, info ∈ Rule.catalog ∧ (info.describe? f.tag).isSome = true ↔ info = rule.info := by
  intro config doc
  let rules := [Rule.QualifiedName.rule, Rule.Handler.rule, Rule.LatestPackage.rule]
  have hrules : Rule.enabled config = .ok rules := rfl
  let f : Finding := ⟨⟨"tasks/main.yml"⟩, 1, "fqcn", "fqcn[action-core]", .error,
    "Use FQCN for builtin module actions (ping)."⟩
  have hlint : f ∈ doc.lint rules := by decide +kernel
  have hkind : doc.kind ≠ .vars := by decide +kernel
  obtain ⟨hcatalog, hreported, -⟩ := findings_catalogued hrules doc
  obtain ⟨rule, hrule, hsays⟩ := (hreported f hlint).resolve_right fun h => hkind h.1
  obtain ⟨-, -, -, -, -, hdescribes⟩ := hcatalog rule hrule f hsays
  exact ⟨rules, hrules, f, hlint, rfl, rule, hrule, hsays, hdescribes⟩

end Document

end PlaybookLint
