import Mathlib.Data.List.Forall2
import PlaybookLint.Proofs.Isolation

/-!
# Findings that a configuration lists

A configuration lists findings that are never shown, and others that are shown as information only.
The lists are applied before findings are arranged. What is compared then is neither the severity
nor the rule, so it has to be seen that the lists could as well be applied to what is reported
without them: findings that are told apart stay so, and none stands in for another one.

## Main definitions

* `Config.withoutLists` - the configuration without the lists.
* `Config.IsWritten` - what a project has for a configuration, as it is written.
* `Config.IsRestated` - the same configuration, with current names for outdated ones.

## Main statements

* `Config.report_eq` - lists can be applied to what is reported without them.
* `Config.load_eq_ok_iff` - what is loaded is what is written, with current names.
* `Project.run_sifted` - a run with lists is a run without them, sifted.
-/

namespace PlaybookLint

/-! ### Outdated identifiers -/

namespace Tag

/-- The same identifier, or the current name of an outdated one. -/
def IsRestated (tag other : String) : Prop :=
  other = tag ∨ current? tag = some other

/-- A current name is not outdated. -/
theorem current?_of_current? {tag other : String} (h : current? tag = some other) :
    current? other = none := by
  have hall : ∀ entry ∈ renamed, current? entry.2 = none := by decide
  obtain ⟨before, after, hrenamed, -⟩ := List.lookup_eq_some_iff.mp h
  exact hall (tag, other) (hrenamed ▸ List.mem_append_right before List.mem_cons_self)

theorem IsRestated.normalize_eq {tag other : String} (h : IsRestated tag other) :
    normalize other = normalize tag := by
  obtain rfl | h := h
  · rfl
  · rw [normalize, normalize, h, current?_of_current? h]
    rfl

end Tag

/-! ### The lists of a configuration -/

namespace Config

variable {config : Config} {found : List Finding} {g : Finding}

/-- The configuration without the lists of findings. -/
def withoutLists (config : Config) : Config :=
  { config with skipList := [], warnList := [] }

theorem mem_report_withoutLists_iff (h : Finding.Determined found) :
    g ∈ config.withoutLists.report found ↔ g ∈ found := by
  rw [mem_report_iff h]
  constructor
  · rintro ⟨f, hf, -, rfl⟩
    exact hf
  · exact fun hg => ⟨g, hg, rfl, rfl⟩

/-- Lists leave findings in order. -/
theorem pairwise_applyLists (h : found.Pairwise Finding.Before) :
    (config.applyLists found).Pairwise Finding.Before := by
  refine List.pairwise_map.mpr ((h.filter _).imp fun {f g} hfg => ?_)
  rwa [Finding.Before, compare_downgrade]

/-- **Lists can be applied to what is reported without them**: both ways findings are strictly in
order, and they are the same. -/
theorem report_eq (h : Finding.Determined found) :
    config.report found = config.applyLists (config.withoutLists.report found) := by
  refine (pairwise_report found).eq_of_mem_iff (pairwise_applyLists (pairwise_report found))
    fun g => ?_
  rw [mem_report_iff h, mem_applyLists_iff]
  simp only [mem_report_withoutLists_iff h]

/-! ### What is written -/

/-- What a project has for a configuration, as it is written: what a file says, which is the one
that is given, or else the one with the usual name; or what holds without such a file. -/
inductive IsWritten (disk : Disk) (given : Option Path) (root : Path) : Config → Prop where
  | nowhere (hgiven : given = none) (husual : disk.names? (root.join ⟨fileName⟩) = none) :
      IsWritten disk given root standard
  | file {path : Path} {text : String} {table : Toml.Table} {written : Config}
      (hpath : given = some path ∨
        given = none ∧ path = root.join ⟨fileName⟩ ∧ (disk.names? path).isSome = true)
      (htext : disk.readText? path = some text) (htable : Toml.Table.read? text = some table)
      (hwritten : ofTable? table = some written) : IsWritten disk given root written

variable {disk : Disk} {given : Option Path} {root : Path}

/-- Where no file is given, the usual one is looked into if it is there. -/
theorem source?_usual : Id.run (source? disk.host none root) =
    (disk.names? (root.join ⟨fileName⟩)).map fun _ => root.join ⟨fileName⟩ :=
  Option.map_map ..

/-- A file is looked into if it is given, or if it has the usual name and is there. -/
theorem source?_eq_some_iff {path : Path} : Id.run (source? disk.host given root) = some path ↔
    given = some path ∨
      given = none ∧ path = root.join ⟨fileName⟩ ∧ (disk.names? path).isSome = true := by
  cases given with
  | some other =>
      change some other = some path ↔ _
      simp
  | none =>
      rw [source?_usual, Option.map_eq_some_iff]
      constructor
      · rintro ⟨names, hnames, rfl⟩
        exact .inr ⟨rfl, rfl, Option.isSome_of_eq_some hnames⟩
      · rintro (hgiven | ⟨-, rfl, hthere⟩)
        · exact nomatch hgiven
        · obtain ⟨names, hnames⟩ := Option.isSome_iff_exists.mp hthere
          exact ⟨names, hnames, rfl⟩

theorem source?_eq_none_iff : Id.run (source? disk.host given root) = none ↔
    given = none ∧ disk.names? (root.join ⟨fileName⟩) = none := by
  cases given with
  | some other => exact iff_of_false nofun nofun
  | none => rw [source?_usual, Option.map_eq_none_iff, and_iff_right rfl]

theorem ofText_eq_ok_iff {text : String} : ofText text = .ok config ↔
    ∃ table written, Toml.Table.read? text = some table ∧ ofTable? table = some written ∧
      config = written.normalize := by
  rw [ofText]
  constructor
  · intro h
    split at h
    next written hread =>
        obtain ⟨table, htable, hwritten⟩ := Option.bind_eq_some_iff.mp hread
        exact ⟨table, written, htable, hwritten, (Except.ok.inj h).symm⟩
    next => exact nomatch h
  · rintro ⟨table, written, htable, hwritten, rfl⟩
    rw [htable, Option.bind_some, hwritten]

/-- Loading looks for a file, reads it and makes sense of it. -/
theorem load_eq : Id.run (load disk.host given root) =
    (Id.run (source? disk.host given root)).elim (.ok standard.normalize) fun path =>
      (disk.readText? path).elim (.error (.unreadableConfig path)) ofText := by
  rw [load, Id.run_bind]
  cases Id.run (source? disk.host given root) with
  | none => rfl
  | some path =>
      have hread : Id.run (disk.host.readText? path) = disk.readText? path := rfl
      dsimp only
      rw [Id.run_bind, hread, Option.elim_some]
      cases disk.readText? path with
      | none => rfl
      | some text => rfl

/-- **What is loaded is what is written**, with current names for all identifiers in the lists. -/
theorem load_eq_ok_iff : Id.run (load disk.host given root) = .ok config ↔
    ∃ written, IsWritten disk given root written ∧ config = written.normalize := by
  rw [load_eq]
  constructor
  · intro h
    cases hsource : Id.run (source? disk.host given root) with
    | none =>
        rw [hsource] at h
        obtain ⟨hgiven, husual⟩ := source?_eq_none_iff.mp hsource
        exact ⟨standard, .nowhere hgiven husual, (Except.ok.inj h).symm⟩
    | some path =>
        rw [hsource, Option.elim_some] at h
        cases htext : disk.readText? path with
        | none =>
            rw [htext] at h
            exact nomatch h
        | some text =>
            rw [htext] at h
            obtain ⟨table, written, htable, hwritten, rfl⟩ := ofText_eq_ok_iff.mp h
            exact ⟨written, .file (source?_eq_some_iff.mp hsource) htext htable hwritten, rfl⟩
  · rintro ⟨written, hwritten, rfl⟩
    cases hwritten with
    | nowhere hgiven husual =>
        rw [source?_eq_none_iff.mpr ⟨hgiven, husual⟩, Option.elim_none]
    | file hpath htext htable hwritten =>
        rw [source?_eq_some_iff.mpr hpath, Option.elim_some, htext, Option.elim_some]
        exact ofText_eq_ok_iff.mpr ⟨_, written, htable, hwritten, rfl⟩

/-- The same configuration, where an outdated identifier in a list may be replaced by its current
name. -/
structure IsRestated (written other : Config) : Prop where
  rest : other.withoutLists = written.withoutLists
  skipList : List.Forall₂ Tag.IsRestated written.skipList other.skipList
  warnList : List.Forall₂ Tag.IsRestated written.warnList other.warnList

theorem map_normalize_eq {tags others : List String} (h : List.Forall₂ Tag.IsRestated tags others) :
    others.map Tag.normalize = tags.map Tag.normalize := by
  induction h with
  | nil => rfl
  | cons htag _ ih => rw [List.map_cons, List.map_cons, htag.normalize_eq, ih]

theorem IsRestated.normalize_eq {written other : Config} (h : IsRestated written other) :
    other.normalize = written.normalize := by
  calc other.normalize
      = { other.withoutLists with
          skipList := other.skipList.map Tag.normalize
          warnList := other.warnList.map Tag.normalize } := rfl
    _ = written.normalize := by
      rw [h.rest, map_normalize_eq h.skipList, map_normalize_eq h.warnList]
      rfl

end Config

/-! ### Runs -/

namespace Project

variable {config : Config} {root : Path} {files : List SourceFile}

/-- Lists can be applied to what is reported of files without them. -/
theorem check_eq_map (hfiles : SourceFile.ToldApart files) :
    check config root files = (check config.withoutLists root files).map
      fun (found, notices) => (config.applyLists found, notices) := by
  by_cases hne : files = []
  · rw [hne]
    rfl
  cases hrules : Rule.enabled config.rules with
  | error e =>
      have hbare : Rule.enabled config.withoutLists.rules = .error e := hrules
      rw [check, check, List.isEmpty_eq_false_iff.mpr hne, if_neg Bool.false_ne_true,
        if_neg Bool.false_ne_true, hrules, hbare]
      rfl
  | ok rules =>
      have hbare : Rule.enabled config.withoutLists.rules = .ok rules := hrules
      rw [check_eq hrules hne, check_eq hbare hne, Except.map,
        Config.report_eq (hfiles.determined hrules)]

/-- **A run with lists is a run without them, sifted.**  Take any configuration that is loaded, and
any project. The lists are those that are written, with current names for outdated identifiers. A
run fails or goes through as it does without them. Of what is reported without them just those
findings are left out that the one list names, and of the rest just those are marked as information
only that the other list names. Nothing else about the findings changes, nor their order. The same
is loaded if outdated identifiers are replaced by current names where they are written. -/
theorem run_sifted {home disk : Disk} (hdisk : disk.tree.Proper) {given : Option Path} {top : Path}
    (hload : Id.run (Config.load home.host given top) = .ok config) (root : Path) :
    ∃ written, Config.IsWritten home given top written ∧
      config.skipList = written.skipList.map Tag.normalize ∧
      config.warnList = written.warnList.map Tag.normalize ∧
      (Id.run (run disk.host config root) =
        (Id.run (run disk.host config.withoutLists root)).map fun (found, notices) =>
          ((found.filter fun f => !f.isListed config.skipList).map fun f =>
            if f.isListed config.warnList then { f with severity := .info } else f, notices)) ∧
      ∀ (place : Disk) (chosen : Option Path) (start : Path) (other : Config),
        Config.IsWritten place chosen start other → written.IsRestated other →
          Id.run (Config.load place.host chosen start) = .ok config := by
  obtain ⟨written, hwritten, rfl⟩ := Config.load_eq_ok_iff.mp hload
  have hfiles := toldApart_files hdisk written.normalize root
  refine ⟨written, hwritten, rfl, rfl, check_eq_map hfiles, ?_⟩
  intro place chosen start other hother hrestated
  exact Config.load_eq_ok_iff.mpr ⟨other, hother, hrestated.normalize_eq.symm⟩

/-- A project with a task that installs what is newest. -/
def latestDisk : Disk where
  base := ⟨"/project"⟩
  tree := .directory [
    (".playlint.toml", .file (some "warn_list = [\"403\"]\n")),
    ("tasks", .directory [("main.yml",
      .file (some "- ansible.builtin.package:\n    name: httpd\n    state: latest\n"))])]

theorem proper_latestDisk : latestDisk.tree.Proper := by
  simp only [latestDisk, FileTree.proper_directory_iff, FileTree.proper_file,
    List.forall_mem_cons, List.not_mem_nil, false_imp_iff, implies_true, and_true]
  decide

/-- The theorem applies to a project whose configuration names a rule by its outdated number: the
finding is shown as information only. -/
theorem run_sifted_latest :
    let f : Finding := ⟨⟨"tasks/main.yml"⟩, 1, "package-latest", "package-latest", .warning,
      "Package installs should not use latest."⟩
    ∃ config, Id.run (Config.load latestDisk.host none ⟨"."⟩) = .ok config ∧
      Id.run (run latestDisk.host config.withoutLists ⟨"."⟩) = .ok ([f], []) ∧
      Id.run (run latestDisk.host config ⟨"."⟩) = .ok ([{ f with severity := .info }], []) := by
  intro f
  let config : Config := { Config.standard with warnList := ["package-latest"] }
  have hload : Id.run (Config.load latestDisk.host none ⟨"."⟩) = .ok config := by decide +kernel
  have hbare : Id.run (run latestDisk.host config.withoutLists ⟨"."⟩) = .ok ([f], []) := by
    decide +kernel
  obtain ⟨written, -, -, -, hrun, -⟩ := run_sifted proper_latestDisk hload ⟨"."⟩
  rw [hbare] at hrun
  exact ⟨config, hload, hbare, hrun⟩

end Project

end PlaybookLint
