import Mathlib.Data.List.Infix
import Mathlib.Data.List.Sort
import PlaybookLint.Proofs.Isolation
import PlaybookLint.Proofs.Locations

/-!
# Which files a scan finds

A scan enters directories one after the other, leaves out some of them with all that is in them, and
sorts what it finds. What it finds can be said without the search: the files that the tests accept,
none of the directories on the way to which is left out. In which order a directory lists its
entries makes no difference.

## Main definitions

* `FileTree.Relisted` - the same entries, listed in another order.
* `Disk.HasFile` - a file is below a directory.
* `Selection.scan` - the paths that a scan of a directory finds.
* `Selection.Wants` - what the tests have to say about a file.

## Main statements

* `Path.components_join` - the components of a path that is continued.
* `FileTree.Relisted.at?` - names lead to the same things in trees that are listed differently.
* `Selection.pairwise_select` - chosen files are strictly in order.
* `Project.scan_finds` - what a scan finds.
-/

namespace PlaybookLint

/-! ### Paths that are continued with names -/

namespace Path

variable {names others : List String}

@[simp] theorem bodyComponents_append (segments rest : List String) :
    bodyComponents (segments ++ rest) = bodyComponents segments ++ bodyComponents rest := by
  rw [bodyComponents, List.filter_append, List.map_append, bodyComponents, bodyComponents]

theorem bodyComponents_cons_filler {segment : String} (h : isFiller segment = true)
    (rest : List String) : bodyComponents (segment :: rest) = bodyComponents rest := by
  simp [bodyComponents, h]

/-- What a path begins with, and then one component for each segment that is no filler. -/
theorem components_eq (p : Path) :
    p.components = (if p.isAbsolute = true then [.root]
      else if p.segments.head? = some "." then [.current] else []) ++
        bodyComponents p.segments := by
  change (opening p.segments).1 ++ bodyComponents (opening p.segments).2 = _
  have habsolute := @isAbsolute_iff p
  generalize p.segments = segments at habsolute ⊢
  fun_cases opening segments with
  | case1 segment rest =>
      have hempty : isFiller "" = true := rfl
      rw [if_pos (habsolute.mpr ⟨segment, rest, rfl⟩), bodyComponents_cons_filler hempty]
  | case2 rest =>
      have hrelative : ¬ p.isAbsolute = true := fun h => by
        obtain ⟨segment, others, h⟩ := habsolute.mp h
        exact nomatch (List.cons.inj h).1
      have hdot : isFiller "." = true := rfl
      rw [if_neg hrelative, List.head?_cons, if_pos rfl, bodyComponents_cons_filler hdot]
  | case3 segments hroot hcurrent =>
      have hrelative : ¬ p.isAbsolute = true := fun h => by
        obtain ⟨segment, others, h⟩ := habsolute.mp h
        exact hroot segment others h
      have hfirst : ¬ segments.head? = some "." := fun h => by
        obtain ⟨rest, h⟩ := List.head?_eq_some_iff.mp h
        exact hcurrent rest h
      rw [if_neg hrelative, if_neg hfirst]

/-- **The components of a path that is continued with names** are those of the path, and the names.
-/
theorem components_join (root : Path) (hne : names ≠ []) (hnames : ∀ name ∈ names, IsName name) :
    (root.join (ofSegments names)).components = root.components ++ names.map .name := by
  obtain ⟨trunk, hpath, htrunk⟩ := segments_join root hne hnames
  have hbody : bodyComponents root.segments = bodyComponents trunk := by
    obtain h | h := htrunk
    · rw [h]
    · rw [h, bodyComponents_append, bodyComponents_cons_filler rfl]
      exact List.append_nil _
  have hfirst : (root.join (ofSegments names)).segments.head? = some "." ↔
      root.segments.head? = some "." := by
    rw [hpath]
    cases trunk with
    | nil =>
        -- the path is empty, and names are no dots
        obtain ⟨name, rest, rfl⟩ := List.exists_cons_of_ne_nil hne
        have hname := (hnames name List.mem_cons_self).ne_current
        obtain h | h := htrunk <;> simp [h, hname]
    | cons segment trunk => obtain h | h := htrunk <;> simp [h]
  rw [components_eq, components_eq, isAbsolute_join root hne hnames, hpath, bodyComponents_append,
    bodyComponents_of_isName hnames, hbody, ← hpath, if_congr hfirst rfl rfl, List.append_assoc]

/-- The name at the end of a path that is continued with names is the last of them. -/
theorem fileName?_join (root : Path) (hne : names ≠ []) (hnames : ∀ name ∈ names, IsName name) :
    (root.join (ofSegments names)).fileName? = names.getLast? := by
  rw [fileName?, components_join root hne hnames,
    List.getLast?_append_of_ne_nil _ (mt List.map_eq_nil_iff.mp hne), List.getLast?_map,
    Option.bind_map]
  exact Option.bind_fun_some _

/-- Different names continue a path to different paths. -/
theorem join_inj {root : Path} (hne : names ≠ []) (hnames : ∀ name ∈ names, IsName name)
    (hne' : others ≠ []) (hothers : ∀ name ∈ others, IsName name) :
    root.join (ofSegments names) = root.join (ofSegments others) ↔ names = others := by
  refine ⟨fun h => ?_, fun h => congrArg (fun names => root.join (ofSegments names)) h⟩
  have hcomponents := congrArg components h
  rw [components_join root hne hnames, components_join root hne' hothers,
    List.append_cancel_left_eq] at hcomponents
  exact Component.map_name_inj.mp hcomponents

/-- Paths that are continued with names are ordered as the names are. -/
theorem compare_join (root : Path) (hne : names ≠ []) (hnames : ∀ name ∈ names, IsName name)
    (hne' : others ≠ []) (hothers : ∀ name ∈ others, IsName name) :
    (root.join (ofSegments names)).compare (root.join (ofSegments others)) =
      compareComponents (names.map .name) (others.map .name) := by
  rw [compare, components_join root hne hnames, components_join root hne' hothers]
  induction root.components with
  | nil => rfl
  | cons c cs ih =>
      have hself : c.compare c = .eq := Std.ReflCmp.compare_self
      rw [List.cons_append, List.cons_append, compareComponents, hself]
      exact ih

end Path

/-! ### Trees that are listed differently -/

namespace FileTree

/-- The same entries, listed in another order here and there. -/
inductive Relisted : FileTree α → FileTree α → Prop where
  | refl (t : FileTree α) : Relisted t t
  | listed {entries others : List (String × FileTree α)} (h : entries.Perm others) :
      Relisted (.directory entries) (.directory others)
  /-- An entry of a directory is listed differently. -/
  | inside {name : String} {t u : FileTree α} (before after : List (String × FileTree α))
      (h : Relisted t u) :
      Relisted (.directory (before ++ (name, t) :: after))
        (.directory (before ++ (name, u) :: after))
  | trans {t u v : FileTree α} (htu : Relisted t u) (huv : Relisted u v) : Relisted t v

namespace Relisted

variable {t u : FileTree α}

theorem isDirectory_eq (h : t.Relisted u) : t.isDirectory = u.isDirectory := by
  induction h with
  | refl t => rfl
  | listed h => rfl
  | inside before after h ih => rfl
  | trans htu huv ih ih' => exact ih.trans ih'

theorem eq_file_iff {content : α} (h : t.Relisted u) : t = .file content ↔ u = .file content := by
  induction h with
  | refl t => rfl
  | listed h => exact iff_of_false nofun nofun
  | inside before after h ih => exact iff_of_false nofun nofun
  | trans htu huv ih ih' => exact ih.trans ih'

/-- What is listed in a tree is listed differently in the other one. -/
theorem directory_entries (h : t.Relisted u) :
    (directory t.entries).Relisted (directory u.entries) := by
  induction h with
  | refl t => exact .refl _
  | listed h => exact .listed h
  | inside before after h ih => exact .inside before after h
  | trans htu huv ih ih' => exact ih.trans ih'

theorem proper (h : t.Relisted u) (ht : t.Proper) : u.Proper := by
  induction h with
  | refl t => exact ht
  | listed h =>
      cases ht with
      | directory hnames hentries hnodup =>
          exact .directory (fun entry hentry => hnames entry (h.mem_iff.mpr hentry))
            (fun entry hentry => hentries entry (h.mem_iff.mpr hentry))
            ((h.map Prod.fst).nodup hnodup)
  | inside before after h ih =>
      cases ht with
      | directory hnames hentries hnodup =>
          rw [List.forall_mem_append, List.forall_mem_cons] at hnames hentries
          refine .directory ?_ ?_ (by simpa using hnodup)
          · rw [List.forall_mem_append, List.forall_mem_cons]
            exact hnames
          · rw [List.forall_mem_append, List.forall_mem_cons]
            exact ⟨hentries.1, ih hentries.2.1, hentries.2.2⟩
  | trans htu huv ih ih' => exact ih' (ih ht)

theorem rel_refl (found : Option (FileTree α)) : Option.Rel Relisted found found := by
  cases found with
  | none => exact .none
  | some t => exact .some (.refl t)

variable {a b c : Option (FileTree α)}

theorem isSome_eq_of_rel (h : Option.Rel Relisted a b) : a.isSome = b.isSome := by
  cases h <;> rfl

theorem any_isDirectory_eq_of_rel (h : Option.Rel Relisted a b) :
    a.any isDirectory = b.any isDirectory := by
  cases h with
  | none => rfl
  | some h => exact h.isDirectory_eq

theorem eq_some_file_iff_of_rel {content : α} (h : Option.Rel Relisted a b) :
    a = some (.file content) ↔ b = some (.file content) := by
  cases h with
  | none => rfl
  | some h => rw [Option.some_inj, Option.some_inj, h.eq_file_iff]

theorem relisted_entries_of_rel (h : Option.Rel Relisted a b) :
    (directory ((a.map entries).getD [])).Relisted (directory ((b.map entries).getD [])) := by
  cases h with
  | none => exact .refl _
  | some h => exact h.directory_entries

theorem rel_trans (hab : Option.Rel Relisted a b)
    (hbc : Option.Rel Relisted b c) : Option.Rel Relisted a c := by
  cases hab with
  | none => exact hbc
  | some hab =>
      cases hbc with
      | some hbc => exact .some (hab.trans hbc)

/-- **Names lead to the same things** in trees that are listed differently. -/
theorem at? (h : t.Relisted u) (ht : t.Proper) (names : List String) :
    Option.Rel Relisted (t.at? names) (u.at? names) := by
  induction h generalizing names with
  | refl t => exact rel_refl _
  | @listed entries others h =>
      cases names with
      | nil => exact .some (.listed h)
      | cons name names =>
          cases ht with
          | directory hnames hentries hnodup =>
              have hsame : entries.lookup name = others.lookup name := by
                refine Option.ext fun t => ?_
                rw [lookup_eq_some_iff hnodup, h.mem_iff,
                  lookup_eq_some_iff ((h.map Prod.fst).nodup hnodup)]
              rw [FileTree.at?, FileTree.at?, FileTree.entries, FileTree.entries, hsame]
              exact rel_refl _
  | @inside name t u before after h ih =>
      cases names with
      | nil => exact .some (.inside before after h)
      | cons first names =>
          have hu := (Relisted.inside before after h).proper ht
          cases ht with
          | directory hnames hentries hnodup =>
              cases hu with
              | directory hnames' hentries' hnodup' =>
                  have hthere : ∀ t : FileTree α,
                      (name, t) ∈ before ++ (name, t) :: after := fun t => by simp
                  by_cases hname : first = name
                  · rw [hname, at?_of_mem hnodup (hthere t), at?_of_mem hnodup' (hthere u)]
                    exact ih (hentries _ (hthere t)) names
                  · have hsame : (before ++ (name, t) :: after).lookup first =
                        (before ++ (name, u) :: after).lookup first := by
                      refine Option.ext fun v => ?_
                      rw [lookup_eq_some_iff hnodup, lookup_eq_some_iff hnodup']
                      simp [hname]
                    rw [FileTree.at?, FileTree.at?, FileTree.entries, FileTree.entries, hsame]
                    exact rel_refl _
  | trans htu huv ih ih' =>
      have hfirst := ih ht names
      have hsecond := ih' (htu.proper ht) names
      exact rel_trans hfirst hsecond

/-- Segments of a path are followed in the same way. -/
theorem follow?_eq (h : t.Relisted u) (ht : t.Proper) (names segments : List String) :
    t.follow? names segments = u.follow? names segments := by
  have hdirectory : ∀ names, (t.at? names).any isDirectory = (u.at? names).any isDirectory :=
    fun names => any_isDirectory_eq_of_rel (h.at? ht names)
  have hsome : ∀ names, (t.at? names).isSome = (u.at? names).isSome :=
    fun names => isSome_eq_of_rel (h.at? ht names)
  induction segments generalizing names with
  | nil => rfl
  | cons segment segments ih => simp only [follow?, hdirectory, hsome, ih]

end Relisted

end FileTree

/-- Directories of two disks whose trees are listed differently are listed differently. -/
theorem Disk.relisted_entries {disk other : Disk} (hbase : other.base = disk.base)
    (h : disk.tree.Relisted other.tree) (hproper : disk.tree.Proper) (root : Path) :
    (FileTree.directory (disk.host.entries root)).Relisted
      (.directory (other.host.entries root)) := by
  have hnames : other.names? root = disk.names? root := by
    simp only [names?, segments?, hbase, h.follow?_eq hproper]
  change (FileTree.directory (((disk.at? root).map FileTree.entries).getD [])).Relisted
    (.directory (((other.at? root).map FileTree.entries).getD []))
  rw [Disk.at?, Disk.at?, hnames]
  cases disk.names? root with
  | none => exact .refl _
  | some names =>
      rw [Option.bind_some, Option.bind_some]
      exact FileTree.Relisted.relisted_entries_of_rel (h.at? hproper names)

/-! ### Chosen files in order -/

namespace Selection

/-- The names of a file come before those of another one. -/
def ComesBefore (a b : List String × α) : Prop :=
  Path.compareComponents (a.1.map .name) (b.1.map .name) = .lt

instance : Std.Asymm (ComesBefore (α := α)) where
  asymm a b hab hba := by
    rw [ComesBefore, Path.compareComponents_eq_compareLex] at hab hba
    have hgt := Std.OrientedCmp.gt_of_lt hba
    exact nomatch hab.symm.trans hgt

/-- Names are sorted as the components of paths are. -/
theorem comesFirst_eq_isLE (names others : List String) :
    comesFirst names others =
      (Path.compareComponents (names.map .name) (others.map .name)).isLE := by
  induction names generalizing others with
  | nil => cases others <;> rfl
  | cons name names ih =>
      cases others with
      | nil => rfl
      | cons other others =>
          have hname : (Component.name name).compare (.name other) = compare name other := rfl
          rw [comesFirst, List.map_cons, List.map_cons, Path.compareComponents, hname, ih]
          by_cases hlt : name < other
          · have hcompare : compare name other = .lt := compareOfLessAndEq_eq_lt.mpr hlt
            rw [if_pos hlt, hcompare]
            rfl
          rw [if_neg hlt]
          by_cases heq : name = other
          · have hcompare : compare other other = .eq := Std.ReflCmp.compare_self
            rw [heq, if_neg (String.lt_irrefl other), hcompare]
            rfl
          · have hgt : other < name := Std.lt_of_le_of_ne (String.not_lt.mp hlt) (Ne.symm heq)
            have hcompare : compare name other = .gt :=
              Std.OrientedCmp.gt_of_lt (compareOfLessAndEq_eq_lt.mpr hgt)
            rw [if_pos hgt, hcompare]
            rfl

variable {s : Selection} {t : FileTree α} {entries : List (String × FileTree α)}
  {above names : List String} {content : α}

/-- Different entries of a directory hold different files. -/
theorem pairwise_ne_collect (hentries : ∀ entry ∈ entries, entry.2.Proper)
    (hnodup : (entries.map Prod.fst).Nodup)
    (hbelow : ∀ entry ∈ entries, ∀ above,
      (s.collectAt above entry.2).Pairwise fun a b => a.1 ≠ b.1) :
    (s.collect above entries).Pairwise fun a b => a.1 ≠ b.1 := by
  rw [collect_eq_flatMap]
  refine List.pairwise_flatMap.mpr ⟨fun entry hentry => hbelow entry hentry _, ?_⟩
  refine (List.pairwise_map.mp hnodup).imp_of_mem fun {e e'} he he' hne => ?_
  rintro ⟨all, content⟩ ha ⟨all', content'⟩ ha' hsame
  obtain ⟨-, rest, rfl, -⟩ := (mem_collectAt_iff (hentries e he)).mp ha
  obtain ⟨-, rest', rfl, -⟩ := (mem_collectAt_iff (hentries e' he')).mp ha'
  simp only [List.append_assoc, List.append_cancel_left_eq, List.singleton_append,
    List.cons.injEq] at hsame
  exact hne hsame.1

/-- No file is found twice. -/
theorem pairwise_ne_collectAt (h : t.Proper) (above : List String) :
    (s.collectAt above t).Pairwise fun a b => a.1 ≠ b.1 := by
  induction h generalizing above with
  | file content =>
      rw [collectAt]
      split
      · exact List.pairwise_singleton _ _
      · exact .nil
  | directory hnames hentries hnodup ih =>
      rw [collectAt]
      split
      · exact pairwise_ne_collect hentries hnodup ih
      · exact .nil

/-- **Chosen files are strictly in order**: by their names, and none twice. -/
theorem pairwise_select (h : (FileTree.directory entries).Proper) :
    (s.select (.directory entries)).Pairwise ComesBefore := by
  have hdistinct : (s.select (.directory entries)).Pairwise fun a b => a.1 ≠ b.1 := by
    cases h with
    | directory hnames hentries hnodup =>
        have hfound : (s.collect [] entries).Pairwise fun a b => a.1 ≠ b.1 :=
          pairwise_ne_collect hentries hnodup fun entry hentry =>
            pairwise_ne_collectAt (hentries entry hentry)
        exact (List.mergeSort_perm _ _).symm.pairwise hfound fun hne => hne.symm
  have hsorted : (s.select (.directory entries)).Pairwise
      fun a b => comesFirst a.1 b.1 = true := by
    refine List.pairwise_mergeSort (fun a b c => ?_) (fun a b => ?_) _
    · simp only [comesFirst_eq_isLE, Path.compareComponents_eq_compareLex]
      exact Std.TransCmp.isLE_trans
    · simp only [comesFirst_eq_isLE, Path.compareComponents_eq_compareLex]
      exact isLE_or_isLE _ _
  refine (hsorted.and hdistinct).imp fun {a b} ⟨hle, hne⟩ => ?_
  rw [comesFirst_eq_isLE, Ordering.isLE_iff_eq_lt_or_eq_eq] at hle
  refine hle.resolve_right fun heq => hne ?_
  rw [Path.compareComponents_eq_compareLex, Std.LawfulEqCmp.compare_eq_iff_eq] at heq
  exact Component.map_name_inj.mp heq

/-- **The order in which entries are listed makes no difference** to what is chosen. -/
theorem select_eq_of_relisted {others : List (String × FileTree α)}
    (h : (FileTree.directory entries).Relisted (.directory others))
    (hproper : (FileTree.directory entries).Proper) :
    s.select (.directory others) = s.select (.directory entries) := by
  refine (pairwise_select (h.proper hproper)).eq_of_mem_iff (pairwise_select hproper) ?_
  rintro ⟨names, content⟩
  have hleads : (FileTree.directory entries).at? names = some (.file content) ↔
      (FileTree.directory others).at? names = some (.file content) :=
    FileTree.Relisted.eq_some_file_iff_of_rel (h.at? hproper names)
  rw [mem_select_iff hproper, mem_select_iff (h.proper hproper)]
  exact ⟨fun hreaches => ⟨hleads.mpr hreaches.leads, hreaches.enters, hreaches.chooses⟩,
    fun hreaches => ⟨hleads.mp hreaches.leads, hreaches.enters, hreaches.chooses⟩⟩

end Selection

/-! ### What a scan finds -/

/-- Names lead on to a file from the directory that a path leads to. -/
structure Disk.HasFile (disk : Disk) (root : Path) (names : List String) : Prop where
  ne_nil : names ≠ []
  leads : ∃ above text, disk.names? root = some above ∧
    disk.tree.at? (above ++ names) = some (.file text)

theorem Disk.hasFile_iff {disk : Disk} {root : Path} {names : List String} :
    disk.HasFile root names ↔
      ∃ text, (FileTree.directory (disk.host.entries root)).at? names = some (.file text) := by
  constructor
  · rintro ⟨hne, above, text, hroot, hfile⟩
    exact ⟨text, (at?_entries_iff hne).mpr ⟨above, hroot, hfile⟩⟩
  · rintro ⟨text, hfile⟩
    have hne : names ≠ [] := FileTree.ne_nil_of_at?_eq_file hfile
    obtain ⟨above, hroot, hfile⟩ := (at?_entries_iff hne).mp hfile
    exact ⟨hne, above, text, hroot, hfile⟩

/-- On a proper disk names lead to files. -/
theorem Disk.HasFile.isName {disk : Disk} {root : Path} {names : List String}
    (h : disk.HasFile root names) (hproper : disk.tree.Proper) :
    ∀ name ∈ names, Path.IsName name := by
  obtain ⟨text, hleads⟩ := hasFile_iff.mp h
  exact ((disk.proper_entries hproper root).at? hleads).2

namespace Selection

/-- The paths of the files that are chosen from a directory. -/
def scan (s : Selection) (disk : Disk) (root : Path) : List Path :=
  (s.select (.directory (disk.host.entries root))).map fun chosen =>
    root.join (.ofSegments chosen.1)

/-- The tests accept a file that names lead to from a directory, and nothing on the way to it is
left out. -/
structure Wants (s : Selection) (root : Path) (names : List String) : Prop where
  isYaml : ∃ extension, (root.join (.ofSegments names)).extension? = some extension ∧
    (extension.toLower = "yml" ∨ extension.toLower = "yaml")
  /-- Neither the file nor a directory on the way is left out, be it by its name or by its path. -/
  notIgnored : ∀ part, part ≠ [] → part <+: names → accepts s.ignores part = false
  notIgnoredFile : accepts s.ignoresFile names = false
  included : accepts s.includes names = true

variable {s : Selection} {disk : Disk} {root : Path} {names : List String}

/-- A file is wanted if the search comes to it and chooses it. -/
theorem wants_iff (hne : names ≠ []) (hnames : ∀ name ∈ names, Path.IsName name) :
    s.Wants root names ↔
      (∀ part, part ≠ [] → part <+: names → s.enters part = true) ∧ s.chooses names = true := by
  have hyaml : names.getLast?.any isYaml = true ↔
      ∃ extension, (root.join (.ofSegments names)).extension? = some extension ∧
        (extension.toLower = "yml" ∨ extension.toLower = "yaml") := by
    rw [Path.extension?, Path.fileName?_join root hne hnames]
    cases names.getLast? with
    | none => simp
    | some name => simp [isYaml, Option.any_eq_true]
  simp only [enters, chooses, Bool.and_eq_true, Bool.not_eq_true', hyaml]
  exact ⟨fun h => ⟨h.notIgnored, ⟨h.isYaml, h.notIgnoredFile⟩, h.included⟩,
    fun ⟨hignored, ⟨hyaml, hfile⟩, hincluded⟩ => ⟨hyaml, hignored, hfile, hincluded⟩⟩

/-- **What a scan finds** are the files that are wanted. -/
theorem mem_scan_iff (h : disk.tree.Proper) {path : Path} : path ∈ s.scan disk root ↔
    ∃ names, path = root.join (.ofSegments names) ∧ disk.HasFile root names ∧
      s.Wants root names := by
  have hproper := disk.proper_entries h root
  rw [scan, List.mem_map]
  constructor
  · rintro ⟨⟨names, text⟩, hchosen, rfl⟩
    have hreaches := (mem_select_iff hproper).mp hchosen
    have hfile : disk.HasFile root names := Disk.hasFile_iff.mpr ⟨text, hreaches.leads⟩
    have hwants : s.Wants root names := (wants_iff hfile.ne_nil (hfile.isName h)).mpr
      ⟨hreaches.enters, hreaches.chooses⟩
    exact ⟨names, rfl, hfile, hwants⟩
  · rintro ⟨names, rfl, hfile, hwants⟩
    obtain ⟨text, hleads⟩ := Disk.hasFile_iff.mp hfile
    obtain ⟨henters, hchooses⟩ := (wants_iff hfile.ne_nil (hfile.isName h)).mp hwants
    exact ⟨(names, text), (mem_select_iff hproper).mpr ⟨hleads, henters, hchooses⟩, rfl⟩

/-- **What a scan finds is strictly in order.** -/
theorem pairwise_scan (h : disk.tree.Proper) :
    (s.scan disk root).Pairwise fun p q => p.compare q = .lt := by
  have hproper := disk.proper_entries h root
  refine List.pairwise_map.mpr ((pairwise_select hproper).imp_of_mem fun {a b} ha hb hab => ?_)
  obtain ⟨hleadsA, hnamesA⟩ := at?_of_mem_select hproper ha
  obtain ⟨hleadsB, hnamesB⟩ := at?_of_mem_select hproper hb
  rwa [Path.compare_join root (FileTree.ne_nil_of_at?_eq_file hleadsA) hnamesA
    (FileTree.ne_nil_of_at?_eq_file hleadsB) hnamesB]

end Selection

/-- **What a scan finds.**  Whatever the tests are that decide, a scan of any directory finds paths
that are strictly in order. It finds nothing but files in the directory. It finds such a file
exactly if this is YAML by its extension, nothing on the way to it and not the file itself is left
out, it is not left out as a file, and it is among those that are included. The order in which
directories list their entries makes no difference. These are the files that a run reads. -/
theorem Project.scan_finds (s : Selection) {disk : Disk} (h : disk.tree.Proper) (root : Path) :
    (s.scan disk root).Pairwise (fun p q => p.compare q = .lt) ∧
      (∀ path ∈ s.scan disk root, ∃ names, disk.HasFile root names ∧
        path = root.join (.ofSegments names)) ∧
      (∀ names, disk.HasFile root names →
        (root.join (.ofSegments names) ∈ s.scan disk root ↔ s.Wants root names)) ∧
      (∀ other : Disk, other.base = disk.base → disk.tree.Relisted other.tree →
        s.scan other root = s.scan disk root) ∧
      ∀ config : Config, config.selection = s →
        (Id.run (Project.files disk.host config root)).map SourceFile.path = s.scan disk root := by
  refine ⟨Selection.pairwise_scan h, fun path hpath => ?_, fun names hfile => ?_,
    fun other hbase hrelisted => ?_, fun config hconfig => ?_⟩
  · obtain ⟨names, rfl, hfile, -⟩ := (Selection.mem_scan_iff h).mp hpath
    exact ⟨names, hfile, rfl⟩
  · rw [Selection.mem_scan_iff h]
    constructor
    · rintro ⟨others, hpath, hother, hwants⟩
      rw [Path.join_inj hfile.ne_nil (hfile.isName h) hother.ne_nil (hother.isName h)] at hpath
      exact hpath ▸ hwants
    · exact fun hwants => ⟨names, rfl, hfile, hwants⟩
  · have hentries := Disk.relisted_entries hbase hrelisted h root
    rw [Selection.scan, Selection.scan,
      Selection.select_eq_of_relisted hentries (disk.proper_entries h root)]
  · rw [files_eq, ← hconfig, Selection.scan]
    exact List.map_map

/-- A project with a file in a directory that is left out, and one of another kind. -/
def searchedDisk : Disk where
  base := ⟨"/project"⟩
  tree := .directory [
    (".git", .directory [("config.yml", .file (some "a: 1\n"))]),
    ("roles", .directory [("web.YML", .file (some "a: 1\n")), ("notes.txt", .file none)])]

theorem proper_searchedDisk : searchedDisk.tree.Proper := by
  simp only [searchedDisk, FileTree.proper_directory_iff, FileTree.proper_file,
    List.forall_mem_cons, List.not_mem_nil, false_imp_iff, implies_true, and_true]
  decide

/-- The theorem applies to a scan of the working directory that leaves out what is called `.git`:
the file in it is not found, another one is, and so it is if directories list their entries the
other way round. -/
theorem Project.scan_finds_web :
    let s : Selection :=
      { ignores := (· = ".git"), ignoresFile := fun _ => false, includes := fun _ => true }
    let other : Disk :=
      { searchedDisk with tree := .directory searchedDisk.tree.entries.reverse }
    (⟨"./roles/web.YML"⟩ : Path) ∈ s.scan searchedDisk ⟨"."⟩ ∧
      (⟨"./roles/notes.txt"⟩ : Path) ∉ s.scan searchedDisk ⟨"."⟩ ∧
      (⟨"./.git/config.yml"⟩ : Path) ∉ s.scan searchedDisk ⟨"."⟩ ∧
      s.scan other ⟨"."⟩ = s.scan searchedDisk ⟨"."⟩ := by
  intro s other
  obtain ⟨-, -, hmem, hrelisted, -⟩ := Project.scan_finds s proper_searchedDisk ⟨"."⟩
  have hfile : ∀ names text, names ≠ [] → searchedDisk.tree.at? names = some (.file text) →
      searchedDisk.HasFile ⟨"."⟩ names := fun names text hne hleads =>
    ⟨hne, [], text, by decide, hleads⟩
  refine ⟨(hmem ["roles", "web.YML"] (hfile _ _ nofun rfl)).mpr ?_, fun h => ?_, fun h => ?_, ?_⟩
  · refine ⟨⟨"YML", by decide, .inl (by decide +kernel)⟩, fun part _ hpart => ?_, rfl, ?_⟩
    · have hparts : ∀ part ∈ ["roles", "web.YML"].inits,
          Selection.accepts s.ignores part = false := by decide
      exact hparts part ((List.mem_inits _ _).mpr hpart)
    · decide
  · obtain ⟨extension, hextension, hyaml⟩ :=
      ((hmem ["roles", "notes.txt"] (hfile _ _ nofun rfl)).mp h).isYaml
    have htxt : (Path.join ⟨"."⟩ (.ofSegments ["roles", "notes.txt"])).extension? = some "txt" := by
      decide
    cases hextension.symm.trans htxt
    exact absurd hyaml (by decide +kernel)
  · have hkept := ((hmem [".git", "config.yml"] (hfile _ _ nofun rfl)).mp h).notIgnored [".git"]
      nofun (List.prefix_append [".git"] ["config.yml"])
    exact absurd hkept (by decide)
  · exact hrelisted other rfl (.listed (List.reverse_perm _).symm)

end PlaybookLint
