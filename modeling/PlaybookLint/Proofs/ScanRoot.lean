import PlaybookLint.Proofs.Locations
import PlaybookLint.Proofs.ShownPath

/-!
# Where a scan starts

The same file may be found from several directories above it. Its text is the same then, and so is
its location, which says what role it belongs to. What is not the same is the path that findings
show, and with it the directories that may say what kind of file it is. So the same is reported of
the file, unless the directory that decides about its kind is seen from one starting point only.

## Main definitions

* `FileKind.ofNames?` - the kind that the directories on the way to a file give it.
* `Project.Chooses` - a scan chooses a file.

## Main statements

* `FileKind.ofNames?_append_iff` - when directories further up make no difference to the kind.
* `SourceFile.lint_shownAt` - what is found in a file that is shown at another path.
* `Project.same_findings` - what two scans report of a file.
-/

namespace PlaybookLint

/-! ### Kinds -/

namespace FileKind

/-- The kind that the directories on the way to a file give it: the innermost one that says
something decides. -/
def ofNames? (names : List String) : Option FileKind :=
  names.dropLast.reverse.findSome? (ofDirectory? (Path.ofSegments names).stem?)

variable {names below : List String}

theorem detect_ofSegments (h : ∀ name ∈ names, Path.IsName name) (content : Node) :
    detect (Path.ofSegments names) content = (ofNames? names).getD (ofContent content) := by
  have hdirectories : (Path.ofSegments names).directories = names.dropLast := by
    rw [Path.directories, Path.components_ofSegments h, ← List.map_dropLast, List.filterMap_map]
    exact List.filterMap_some
  rw [detect, hdirectories, ofNames?]

/-- The stem of a file does not depend on the directories. -/
theorem stem?_append (above : List String) (hne : below ≠ [])
    (h : ∀ name ∈ above ++ below, Path.IsName name) :
    (Path.ofSegments (above ++ below)).stem? = (Path.ofSegments below).stem? := by
  have hbelow : ∀ name ∈ below, Path.IsName name := fun name hname =>
    h name (List.mem_append_right above hname)
  rw [Path.stem?, Path.stem?, Path.fileName?, Path.fileName?, Path.components_ofSegments h,
    Path.components_ofSegments hbelow, List.map_append,
    List.getLast?_append_of_ne_nil _ (mt List.map_eq_nil_iff.mp hne)]

/-- Whether a directory on the way to a file has a say about its kind. -/
def hasSay (file : List String) (directory : String) : Bool :=
  (ofDirectory? (Path.ofSegments file).stem? directory).isSome

theorem findSome?_eq_none_iff {file directories : List String} :
    directories.reverse.findSome? (ofDirectory? (Path.ofSegments file).stem?) = none ↔
      ∀ directory ∈ directories, hasSay file directory = false := by
  simp [hasSay, List.findSome?_eq_none_iff]

/-- **Directories further up make no difference to the kind** exactly if one further down has a say,
or none of them has. -/
theorem ofNames?_append_iff (above : List String) (hne : below ≠ [])
    (h : ∀ name ∈ above ++ below, Path.IsName name) :
    ofNames? (above ++ below) = ofNames? below ↔
      (∃ directory ∈ below.dropLast, hasSay below directory = true) ∨
        ∀ directory ∈ above, hasSay below directory = false := by
  have hbelow : ofNames? below = none ↔
      ¬ ∃ directory ∈ below.dropLast, hasSay below directory = true := by
    rw [ofNames?, findSome?_eq_none_iff]
    simp
  rw [← findSome?_eq_none_iff, ofNames?, stem?_append above hne h,
    List.dropLast_append_of_ne_nil hne, List.reverse_append, List.findSome?_append, ← ofNames?]
  cases hkind : ofNames? below with
  | none => rw [Option.none_or, or_iff_right (hbelow.mp hkind)]
  | some kind =>
      have hdecided : ∃ directory ∈ below.dropLast, hasSay below directory = true := by
        by_contra hnone
        exact nomatch hkind.symm.trans (hbelow.mpr hnone)
      exact iff_of_true rfl (.inl hdecided)

end FileKind

/-! ### One file, shown at two paths -/

/-- **What is found in a file** that is shown at another path is the same, if the other path makes
it a file of the same kind. -/
theorem SourceFile.lint_shownAt {config : RuleConfig} {rules : List Rule}
    (hrules : Rule.enabled config = .ok rules) {file other : SourceFile}
    (htext : other.text? = file.text?) (hlocation : other.location = file.location)
    (hkind : ∀ content, FileKind.detect other.shown content = FileKind.detect file.shown content) :
    (other.lint rules).1 = (file.lint rules).1.map (Finding.shownAt other.shown) := by
  rw [SourceFile.lint, SourceFile.lint, htext, hlocation]
  cases file.text? with
  | none => rfl
  | some text =>
      dsimp only
      rw [Document.ofText, Document.ofText]
      cases Yaml.Event.read text with
      | error e => rfl
      | ok events =>
          dsimp only [Except.map]
          rw [← Document.lint_shownAt hrules]
          simp only [Document.ofTrees, Document.shownAt, Option.getD_none, hkind]

/-! ### Two scans that choose a file -/

namespace Project

/-- A scan of a directory chooses the file that names lead to from the working directory; `below`
leads there from the directory that is scanned. -/
structure Chooses (disk : Disk) (config : Config) (root : Path) (file below : List String) :
    Prop where
  leads : ∃ above, disk.names? root = some above ∧ above ++ below = file
  chosen : below ∈ (config.selection.select (.directory (disk.host.entries root))).map Prod.fst

variable {disk : Disk} {config : Config} {root : Path} {file below : List String}

/-- **A file that is chosen is opened**, and it is where the names lead to. -/
theorem Chooses.exists_file (h : Chooses disk config root file below)
    (hdisk : disk.tree.Proper) (hbase : disk.base.isAbsolute = true) :
    below ≠ [] ∧ (∀ name ∈ below, Path.IsName name) ∧
      ∃ source ∈ Id.run (files disk.host config root), source.shown = Path.ofSegments below ∧
        source.location = disk.pathTo file ∧ disk.tree.at? file = some (.file source.text?) := by
  obtain ⟨above, habove, rfl⟩ := h.leads
  obtain ⟨⟨names, text⟩, hchosen, rfl⟩ := List.mem_map.mp h.chosen
  obtain ⟨hat, hnames⟩ := Selection.at?_of_mem_select (disk.proper_entries hdisk root) hchosen
  dsimp only at hat hnames ⊢
  have hne : names ≠ [] := FileTree.ne_nil_of_at?_eq_file hat
  have hfile : disk.tree.at? (above ++ names) = some (.file text) := by
    obtain ⟨start, hstart, hthere⟩ := (Disk.at?_entries_iff hne).mp hat
    cases habove.symm.trans hstart
    exact hthere
  refine ⟨hne, hnames, openFile disk.host root names text, ?_, rfl, ?_, hfile⟩
  · rw [files_eq]
    exact List.mem_map.mpr ⟨(names, text), hchosen, rfl⟩
  · exact disk.location_join hbase habove hne hnames (Option.isSome_of_eq_some hfile)

/-- What a scan reports of a file that it chooses. -/
theorem run_eq (hdisk : disk.tree.Proper) {rules : List Rule}
    (hrules : Rule.enabled config.rules = .ok rules) {source : SourceFile}
    (hsource : source ∈ Id.run (files disk.host config root)) :
    ∃ found notices, Id.run (run disk.host config root) = .ok (found, notices) ∧
      found.filter (fun f => f.file = source.shown) = config.report (source.lint rules).1 := by
  have htold := toldApart_files hdisk config root
  exact ⟨_, _, check_eq hrules (List.ne_nil_of_mem hsource), filter_report_eq hrules htold hsource⟩

/-- A scan that chooses a file fails if the configuration has a pattern that is none. -/
theorem run_eq_error {e : Failure} (he : Rule.enabled config.rules = .error e)
    {source : SourceFile} (hsource : source ∈ Id.run (files disk.host config root)) :
    Id.run (run disk.host config root) = .error e := by
  change check config root (Id.run (files disk.host config root)) = .error e
  rw [check, List.isEmpty_eq_false_iff.mpr (List.ne_nil_of_mem hsource),
    if_neg Bool.false_ne_true, he]
  rfl

/-- **What two scans report of a file.**  Take any two directories from which a scan chooses the
same file. The scans go through, unless the configuration has a pattern that is none. They report
the same findings of the file, but for the path that is shown, if the directories that they see on
the way to the file give it the same kind, or both give it none. Where one scan starts further up,
this is so exactly if a directory that both scans see has a say about the kind, or no directory that
only one of them sees has. -/
theorem same_findings (hdisk : disk.tree.Proper) (hbase : disk.base.isAbsolute = true)
    {other : Path} {otherBelow : List String} (hroot : Chooses disk config root file below)
    (hother : Chooses disk config other file otherBelow) :
    (∀ between, otherBelow = between ++ below →
      (FileKind.ofNames? otherBelow = FileKind.ofNames? below ↔
        (∃ directory ∈ below.dropLast, FileKind.hasSay below directory = true) ∨
          ∀ directory ∈ between, FileKind.hasSay below directory = false)) ∧
    (∀ e, Rule.enabled config.rules = .error e →
      Id.run (run disk.host config root) = .error e ∧
        Id.run (run disk.host config other) = .error e) ∧
    ∀ rules, Rule.enabled config.rules = .ok rules →
      ∃ found notices otherFound otherNotices,
        Id.run (run disk.host config root) = .ok (found, notices) ∧
        Id.run (run disk.host config other) = .ok (otherFound, otherNotices) ∧
        (FileKind.ofNames? otherBelow = FileKind.ofNames? below →
          otherFound.filter (fun f => f.file = Path.ofSegments otherBelow) =
            (found.filter fun f => f.file = Path.ofSegments below).map
              (Finding.shownAt (Path.ofSegments otherBelow))) := by
  obtain ⟨hne, hnames, a, ha, hshownA, hlocationA, hatA⟩ := hroot.exists_file hdisk hbase
  obtain ⟨-, hotherNames, b, hb, hshownB, hlocationB, hatB⟩ := hother.exists_file hdisk hbase
  refine ⟨?kinds, fun e he => ⟨run_eq_error he ha, run_eq_error he hb⟩, fun rules hrules => ?_⟩
  case kinds =>
    rintro between rfl
    exact FileKind.ofNames?_append_iff between hne hotherNames
  obtain ⟨found, notices, hrun, hfound⟩ := run_eq hdisk hrules ha
  obtain ⟨otherFound, otherNotices, hotherRun, hotherFound⟩ := run_eq hdisk hrules hb
  refine ⟨found, notices, otherFound, otherNotices, hrun, hotherRun, fun hkind => ?_⟩
  have htext : b.text? = a.text? := by
    rw [hatA, Option.some_inj, FileTree.file.injEq] at hatB
    exact hatB.symm
  have hdetect : ∀ content, FileKind.detect b.shown content = FileKind.detect a.shown content := by
    intro content
    rw [hshownA, hshownB, FileKind.detect_ofSegments hnames,
      FileKind.detect_ofSegments hotherNames, hkind]
  have hlint := SourceFile.lint_shownAt hrules htext (hlocationB.trans hlocationA.symm) hdetect
  have habout : ∀ f ∈ (a.lint rules).1, f.file = a.shown := fun f hf =>
    ((SourceFile.mem_lint_iff.mp hf).isRegistered hrules).1
  rw [← hshownA, ← hshownB, hfound, hotherFound, hlint, Config.report_shownAt config _ habout]

/-- A role with a variable that does not begin with its name. -/
def roleDisk : Disk where
  base := ⟨"/project"⟩
  tree := FileTree.nested (.file (some "http_port: 80\n")) ["roles", "web", "vars", "main.yml"]

theorem chooses_from_role : Chooses roleDisk .standard ⟨"/project/roles/web"⟩
    ["roles", "web", "vars", "main.yml"] ["vars", "main.yml"] :=
  ⟨⟨["roles", "web"], by decide +kernel, rfl⟩, by decide +kernel⟩

theorem run_from_role :
    let f : Finding := ⟨⟨"vars/main.yml"⟩, 1, "var-naming", "var-naming[no-role-prefix]", .error,
      "Variables names from within roles should use web_ as a prefix. (vars: http_port)"⟩
    Id.run (run roleDisk.host .standard ⟨"/project/roles/web"⟩) = .ok ([f], []) := by
  decide +kernel

/-- The theorem applies to the variables of a role: from the directory of the role the same is found
as from the project, which is written with a slash at its end. -/
theorem same_findings_from_role :
    ∃ found notices otherFound otherNotices,
      Id.run (run roleDisk.host .standard ⟨"/project/roles/web"⟩) = .ok (found, notices) ∧
      Id.run (run roleDisk.host .standard ⟨"/project/"⟩) = .ok (otherFound, otherNotices) ∧
      found.map Finding.tag = ["var-naming[no-role-prefix]"] ∧
      otherFound.filter (fun f => f.file = ⟨"roles/web/vars/main.yml"⟩) =
        (found.filter fun f => f.file = ⟨"vars/main.yml"⟩).map
          (Finding.shownAt ⟨"roles/web/vars/main.yml"⟩) := by
  have hproper : roleDisk.tree.Proper := FileTree.proper_nested (.file _) (by decide)
  have hother : Chooses roleDisk .standard ⟨"/project/"⟩
      ["roles", "web", "vars", "main.yml"] ["roles", "web", "vars", "main.yml"] :=
    ⟨⟨[], by decide +kernel, rfl⟩, by decide +kernel⟩
  obtain ⟨hkinds, hfails, hruns⟩ := same_findings hproper (by decide) chooses_from_role hother
  cases hrules : Rule.enabled Config.standard.rules with
  | error e => exact nomatch run_from_role.symm.trans (hfails e hrules).1
  | ok rules =>
      obtain ⟨found, notices, otherFound, otherNotices, hfound, hotherFound, hsame⟩ :=
        hruns rules hrules
      have hsay : FileKind.hasSay ["vars", "main.yml"] "vars" = true := by decide +kernel
      have hkind := (hkinds ["roles", "web"] rfl).mpr (.inl ⟨"vars", List.mem_cons_self, hsay⟩)
      cases hfound.symm.trans run_from_role
      exact ⟨_, _, otherFound, otherNotices, run_from_role, hotherFound, rfl, hsame hkind⟩

/-- Findings do depend on where the scan starts: from the directory of the variables itself nothing
is reported of the same file, because no name below that directory says that it holds variables. -/
theorem unreported_from_vars :
    let file := ["roles", "web", "vars", "main.yml"]
    Chooses roleDisk .standard ⟨"/project/roles/web"⟩ file ["vars", "main.yml"] ∧
      Chooses roleDisk .standard ⟨"/project/roles/web/vars"⟩ file ["main.yml"] ∧
      ∃ found, Id.run (run roleDisk.host .standard ⟨"/project/roles/web"⟩) = .ok (found, []) ∧
        found.map Finding.tag = ["var-naming[no-role-prefix]"] ∧
        Id.run (run roleDisk.host .standard ⟨"/project/roles/web/vars"⟩) = .ok ([], []) := by
  intro file
  have hother : Chooses roleDisk .standard ⟨"/project/roles/web/vars"⟩ file ["main.yml"] :=
    ⟨⟨["roles", "web", "vars"], by decide +kernel, rfl⟩, by decide +kernel⟩
  exact ⟨chooses_from_role, hother, _, run_from_role, rfl, by decide +kernel⟩

end Project

end PlaybookLint
