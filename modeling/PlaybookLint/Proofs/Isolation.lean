import Mathlib.Data.List.Sort
import PlaybookLint.Project
import PlaybookLint.Proofs.FindingOrder
import PlaybookLint.Proofs.Listing
import PlaybookLint.Proofs.Provenance

/-!
# Files do not disturb one another

Files are linted one by one, their findings are thrown together, and the order in which this happens
is nobody's business: what is reported in the end depends only on which findings there are. This
needs that no two findings of a run are taken for one unless they are the same. Findings of one file
are told apart because a tag has one rule and one severity, findings of several files because no two
files are shown by the same path.

## Main definitions

* `SourceFile.Produces` - a finding is among those of a file.
* `SourceFile.ToldApart` - no two of some files are shown by the same path.

## Main statements

* `Config.mem_report_iff` - reporting loses nothing but what is to be skipped.
* `Project.toldApart_files` - the files of a project are told apart.
* `Project.check_isolated` - a run is independent of the order of files, and each file in it of the
  others.
-/

namespace PlaybookLint

/-! ### The findings of a file -/

theorem Document.path_of_ofText {path : Path} {kind : Option FileKind} {text : String}
    {doc : Document} {notices : List Notice}
    (h : Document.ofText path kind text = .ok (doc, notices)) : doc.path = path := by
  unfold Document.ofText at h
  cases hevents : Yaml.Event.read text with
  | error e =>
      rw [hevents] at h
      exact nomatch h
  | ok events =>
      rw [hevents] at h
      cases h
      rfl

namespace SourceFile

/-- A finding is among those of a file: linting the document in it reports the finding, or the file
can be read but holds no document, and the finding says so. -/
inductive Produces (rules : List Rule) (file : SourceFile) : Finding → Prop where
  | linted {text : String} {doc : Document} {notices : List Notice} {f : Finding}
      (htext : file.text? = some text)
      (hdoc : Document.ofText file.shown none text = .ok (doc, notices))
      (hf : f ∈ Document.lint rules { doc with role := roleOf file.location }) :
      Produces rules file f
  | malformed {text : String} {e : Yaml.Error} (htext : file.text? = some text)
      (herror : Document.ofText file.shown none text = .error e) :
      Produces rules file (.loadFailure file.shown)

variable {rules : List Rule} {file : SourceFile}

theorem mem_lint_iff {f : Finding} : f ∈ (file.lint rules).1 ↔ file.Produces rules f := by
  constructor
  · intro h
    unfold lint at h
    cases htext : file.text? with
    | none =>
        rw [htext] at h
        exact nomatch h
    | some text =>
        rw [htext] at h
        dsimp only at h
        cases hread : Document.ofText file.shown none text with
        | error e =>
            rw [hread] at h
            cases List.mem_singleton.mp h
            exact .malformed htext hread
        | ok result =>
            rw [hread] at h
            exact .linted htext hread h
  · rintro (⟨htext, hdoc, hf⟩ | ⟨htext, herror⟩)
    · rw [lint, htext]
      dsimp only
      rw [hdoc]
      exact hf
    · rw [lint, htext]
      dsimp only
      rw [herror]
      exact List.mem_cons_self

/-- What a file produces is about that file, and registered. -/
theorem Produces.isRegistered {config : RuleConfig} (hrules : Rule.enabled config = .ok rules)
    {f : Finding} (h : file.Produces rules f) : f.file = file.shown ∧ f.IsRegistered := by
  cases h with
  | linted _ hdoc hf =>
      obtain ⟨hfile, hregistered⟩ := Document.isRegistered_of_mem_lint hrules hf
      have hpath := Document.path_of_ofText hdoc
      exact ⟨hfile.trans hpath, hregistered⟩
  | malformed => exact ⟨rfl, Finding.isRegistered_loadFailure file.shown⟩

/-- No two of the files are shown by the same path. -/
def ToldApart (files : List SourceFile) : Prop :=
  ∀ a ∈ files, ∀ b ∈ files, a.shown.components = b.shown.components → a = b

/-- **Findings of files that are told apart are determined** by what they are ordered by. -/
theorem ToldApart.determined {files : List SourceFile} (hfiles : ToldApart files)
    {config : RuleConfig} (hrules : Rule.enabled config = .ok rules) :
    Finding.Determined (files.flatMap fun file => (file.lint rules).1) := by
  intro f hf g hg hcompare
  obtain ⟨a, ha, hfa⟩ := List.mem_flatMap.mp hf
  obtain ⟨b, hb, hgb⟩ := List.mem_flatMap.mp hg
  obtain ⟨hfileA, hregisteredF⟩ := (mem_lint_iff.mp hfa).isRegistered hrules
  obtain ⟨hfileB, hregisteredG⟩ := (mem_lint_iff.mp hgb).isRegistered hrules
  obtain ⟨hfile, hline, htag, hmessage⟩ := Finding.compare_eq_eq_iff.mp hcompare
  have hsame : a = b := hfiles a ha b hb (by rw [← hfileA, ← hfileB, hfile])
  have hpath : f.file = g.file := by rw [hfileA, hfileB, hsame]
  exact hregisteredF.eq hregisteredG hpath hline htag hmessage

end SourceFile

/-! ### What is reported -/

namespace Config

variable (config : Config)

theorem compare_downgrade (f g : Finding) :
    (config.downgrade f).compare (config.downgrade g) = f.compare g := by
  unfold downgrade
  split <;> split <;> rfl

theorem file_downgrade (f : Finding) : (config.downgrade f).file = f.file := by
  unfold downgrade
  split <;> rfl

variable {config}

theorem mem_applyLists_iff {found : List Finding} {g : Finding} :
    g ∈ config.applyLists found ↔
      ∃ f ∈ found, f.isListed config.skipList = false ∧ config.downgrade f = g := by
  simp only [applyLists, List.mem_map, List.mem_filter, Bool.not_eq_true', and_assoc]

/-- Findings stay determined when some are marked as information only. -/
theorem determined_applyLists {found : List Finding} (h : Finding.Determined found) :
    Finding.Determined (config.applyLists found) := by
  intro f hf g hg hcompare
  obtain ⟨source, hsource, -, rfl⟩ := mem_applyLists_iff.mp hf
  obtain ⟨other, hother, -, rfl⟩ := mem_applyLists_iff.mp hg
  rw [compare_downgrade] at hcompare
  rw [h source hsource other hother hcompare]

/-- **What is reported is strictly in order**, whatever is found. -/
theorem pairwise_report (found : List Finding) : (config.report found).Pairwise Finding.Before :=
  Finding.pairwise_arrange _

/-- **Reporting loses nothing** but what is to be skipped. -/
theorem mem_report_iff {found : List Finding} (h : Finding.Determined found) {g : Finding} :
    g ∈ config.report found ↔
      ∃ f ∈ found, f.isListed config.skipList = false ∧ config.downgrade f = g := by
  rw [report, Finding.mem_arrange_iff (determined_applyLists h), mem_applyLists_iff]

/-- Reporting does not depend on the order of what is found. -/
theorem report_eq_of_perm {found other : List Finding} (h : Finding.Determined found)
    (hperm : other.Perm found) : config.report other = config.report found := by
  have hother : Finding.Determined other := h.mono fun f hf => hperm.mem_iff.mp hf
  refine (pairwise_report other).eq_of_mem_iff (pairwise_report found) fun g => ?_
  simp only [mem_report_iff h, mem_report_iff hother, hperm.mem_iff]

end Config

/-! ### Runs -/

namespace Project

open SourceFile (ToldApart)

/-- The files of a project on a disk are those that are chosen, opened one by one. -/
theorem files_eq (disk : Disk) (config : Config) (root : Path) :
    files disk.host config root =
      (config.selection.select (.directory (disk.host.entries root))).map fun entry =>
        openFile disk.host root entry.1 entry.2 :=
  List.idRun_mapM

/-- **The files of a project are told apart** by their paths, wherever the project is. -/
theorem toldApart_files {disk : Disk} (h : disk.tree.Proper) (config : Config) (root : Path) :
    ToldApart (files disk.host config root) := by
  rw [files_eq]
  intro a ha b hb hshown
  obtain ⟨entry, hentry, rfl⟩ := List.mem_map.mp ha
  obtain ⟨other, hother, rfl⟩ := List.mem_map.mp hb
  have hsame : entry = other :=
    Selection.eq_of_mem_select (disk.proper_entries h root) hentry hother hshown
  rw [hsame]

variable {config : Config} {root : Path} {rules : List Rule} {files : List SourceFile}

/-- A run on some files reports all that is found in them. -/
theorem check_eq (hrules : Rule.enabled config.rules = .ok rules) (hne : files ≠ []) :
    check config root files =
      .ok (config.report (files.flatMap fun file => (file.lint rules).1),
        files.flatMap fun file => (file.lint rules).2) := by
  rw [check, List.isEmpty_eq_false_iff.mpr hne, if_neg Bool.false_ne_true, hrules]
  simp only [Except.map, List.flatMap_map]

/-- What is reported about one file of a run is what is reported of the file alone. -/
theorem filter_report_eq (hrules : Rule.enabled config.rules = .ok rules)
    (hfiles : ToldApart files) {file : SourceFile} (hfile : file ∈ files) :
    (config.report (files.flatMap fun file => (file.lint rules).1)).filter
        (fun g => g.file = file.shown) = config.report (file.lint rules).1 := by
  have hall := hfiles.determined hrules
  have hone : Finding.Determined (file.lint rules).1 :=
    hall.mono fun f hf => List.mem_flatMap.mpr ⟨file, hfile, hf⟩
  refine ((Config.pairwise_report _).filter _).eq_of_mem_iff (Config.pairwise_report _) fun g => ?_
  simp only [List.mem_filter, decide_eq_true_eq, Config.mem_report_iff hall,
    Config.mem_report_iff hone]
  constructor
  · rintro ⟨⟨f, hf, hlisted, rfl⟩, hshown⟩
    obtain ⟨a, ha, hfa⟩ := List.mem_flatMap.mp hf
    have hfileA := ((SourceFile.mem_lint_iff.mp hfa).isRegistered hrules).1
    rw [Config.file_downgrade, hfileA] at hshown
    -- the finding is shown with the path of the file, so it comes from there
    have hsame : a = file := hfiles a ha file hfile (congrArg Path.components hshown)
    exact ⟨f, hsame ▸ hfa, hlisted, rfl⟩
  · rintro ⟨f, hf, hlisted, rfl⟩
    refine ⟨⟨f, List.mem_flatMap.mpr ⟨file, hfile, hf⟩, hlisted, rfl⟩, ?_⟩
    rw [Config.file_downgrade, ((SourceFile.mem_lint_iff.mp hf).isRegistered hrules).1]

/-- **A run is independent of the order of files, and each file of the others.**  Whatever the order
in which findings or files come in, the same findings are reported, and strictly in order. They are
exactly those that some file produces and that are not to be skipped. Those about one file are
reported just so in a run on that file alone. -/
theorem check_isolated (root : Path) (hrules : Rule.enabled config.rules = .ok rules)
    (hne : files ≠ []) (hfiles : ToldApart files) :
    ∃ found notices, check config root files = .ok (found, notices) ∧
      (∀ schedule : List Finding, schedule.Perm (files.flatMap fun file => (file.lint rules).1) →
        config.report schedule = found) ∧
      (∀ order : List SourceFile, order.Perm files →
        ∃ notices, check config root order = .ok (found, notices)) ∧
      found.Pairwise Finding.Before ∧
      (∀ g, g ∈ found ↔ ∃ file ∈ files, ∃ f, file.Produces rules f ∧
        f.isListed config.skipList = false ∧ config.downgrade f = g) ∧
      ∀ file ∈ files, ∃ notices,
        check config root [file] = .ok (found.filter fun g => g.file = file.shown, notices) := by
  have hdetermined := hfiles.determined hrules
  refine ⟨_, _, check_eq hrules hne, fun schedule => Config.report_eq_of_perm hdetermined, ?_,
    Config.pairwise_report _, fun g => ?_, fun file hfile => ?_⟩
  · intro order horder
    have hnonempty : order ≠ [] := fun hnil => hne (hnil ▸ horder).nil_eq.symm
    refine ⟨order.flatMap fun file => (file.lint rules).2, ?_⟩
    rw [check_eq hrules hnonempty]
    congr 2
    exact Config.report_eq_of_perm hdetermined (horder.flatMap_right _)
  · rw [Config.mem_report_iff hdetermined]
    constructor
    · rintro ⟨f, hf, hlisted, rfl⟩
      obtain ⟨file, hfile, hmem⟩ := List.mem_flatMap.mp hf
      exact ⟨file, hfile, f, SourceFile.mem_lint_iff.mp hmem, hlisted, rfl⟩
    · rintro ⟨file, hfile, f, hproduces, hlisted, rfl⟩
      have hmem := SourceFile.mem_lint_iff.mpr hproduces
      exact ⟨f, List.mem_flatMap.mpr ⟨file, hfile, hmem⟩, hlisted, rfl⟩
  · refine ⟨[file].flatMap fun file => (file.lint rules).2, ?_⟩
    rw [filter_report_eq hrules hfiles hfile, check_eq hrules (List.cons_ne_nil file []),
      List.flatMap_singleton]

/-- The theorem applies to two files, one of which is not YAML: this is reported, and makes no
difference to what is reported about the other one. -/
theorem check_isolated_malformed :
    let config := { Config.standard with rules := { RuleConfig.standard with naming := false } }
    let tasks : SourceFile := ⟨⟨"tasks/main.yml"⟩, ⟨"tasks/main.yml"⟩, ⟨"/tasks/main.yml"⟩,
      some "- ping:\n"⟩
    let broken : SourceFile := ⟨⟨"broken.yml"⟩, ⟨"broken.yml"⟩, ⟨"/broken.yml"⟩, some "a: [\n"⟩
    ∃ found notices, check config ⟨"."⟩ [tasks, broken] = .ok (found, notices) ∧
      Finding.loadFailure broken.shown ∈ found ∧
      (∃ f ∈ found, f.file = tasks.shown ∧ f.tag = "fqcn[action-core]") ∧
      ∃ notices, check config ⟨"."⟩ [tasks] =
        .ok (found.filter fun g => g.file = tasks.shown, notices) := by
  intro config tasks broken
  let rules := [Rule.QualifiedName.rule, Rule.Handler.rule, Rule.LatestPackage.rule]
  have hrules : Rule.enabled config.rules = .ok rules := rfl
  have hfiles : ToldApart [tasks, broken] := by
    unfold ToldApart
    decide +kernel
  obtain ⟨found, notices, hcheck, -, -, -, hmem, halone⟩ :=
    check_isolated ⟨"."⟩ hrules (List.cons_ne_nil tasks [broken]) hfiles
  refine ⟨found, notices, hcheck, ?_, ?_, halone tasks List.mem_cons_self⟩
  · have hlint : Finding.loadFailure broken.shown ∈ (broken.lint rules).1 := by decide +kernel
    exact (hmem _).mpr ⟨broken, by simp, _, SourceFile.mem_lint_iff.mp hlint, rfl, rfl⟩
  · let f : Finding := ⟨tasks.shown, 1, "fqcn", "fqcn[action-core]", .error,
      "Use FQCN for builtin module actions (ping)."⟩
    have hlint : f ∈ (tasks.lint rules).1 := by decide +kernel
    have hfound : f ∈ found :=
      (hmem f).mpr ⟨tasks, by simp, f, SourceFile.mem_lint_iff.mp hlint, rfl, rfl⟩
    exact ⟨f, hfound, rfl, rfl⟩

end Project

end PlaybookLint
