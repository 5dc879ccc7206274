import PlaybookLint.FileTree
import PlaybookLint.FileTree.Selection
import PlaybookLint.Proofs.Words

/-!
# Listed files

What is chosen from a directory are files in it, each given with the names that lead there. Where
entries are named as file systems do it, a path that is written from such names has just them as its
components. So files that are chosen have different paths, unless they are the same.

## Main definitions

* `Path.IsName` - a text that can be the name of an entry.
* `FileTree.Proper` - all entries have such names, and those of one directory different ones.
* `Selection.Reaches` - a search comes to a file and chooses it.

## Main statements

* `Path.components_ofSegments` - a path that is written from names consists of them.
* `Selection.mem_select_iff` - what is chosen is what a search reaches.
* `Selection.at?_of_mem_select` - the names of a chosen file lead to it.
* `Selection.eq_of_mem_select` - a chosen file is determined by its path.
-/

namespace PlaybookLint

/-! ### Names in paths -/

theorem Component.map_name_inj {names others : List String} :
    names.map Component.name = others.map Component.name ↔ names = others :=
  List.map_inj_right fun _ _ => Component.name.inj

namespace Path

/-- A text that can be the name of an entry of a directory. -/
structure IsName (name : String) : Prop where
  ne_empty : name ≠ ""
  ne_current : name ≠ "."
  ne_parent : name ≠ ".."
  noSlash : '/' ∉ name.toList

theorem isName_iff {name : String} :
    IsName name ↔ name ≠ "" ∧ name ≠ "." ∧ name ≠ ".." ∧ '/' ∉ name.toList :=
  ⟨fun h => ⟨h.ne_empty, h.ne_current, h.ne_parent, h.noSlash⟩,
    fun ⟨hempty, hcurrent, hparent, hslash⟩ => ⟨hempty, hcurrent, hparent, hslash⟩⟩

instance (name : String) : Decidable (IsName name) :=
  decidable_of_iff _ isName_iff.symm

variable {names : List String}

/-- The pieces of a path that is written from names are these names. -/
theorem segments_ofSegments (hne : names ≠ []) (h : ∀ name ∈ names, IsName name) :
    (ofSegments names).segments = names := by
  have hpieces : ∀ piece ∈ names.map String.toList, '/' ∉ piece := by
    intro piece hpiece
    obtain ⟨name, hname, rfl⟩ := List.mem_map.mp hpiece
    exact (h name hname).noSlash
  have hsplit : Text.splitAll '/' (ofSegments names).text.toList = names.map String.toList := by
    rw [ofSegments, String.toList_intercalate]
    exact Text.splitAll_intercalate (mt List.map_eq_nil_iff.mp hne) hpieces
  rw [segments, hsplit, List.map_map]
  simp

theorem opening_of_isName {name : String} (h : IsName name) (rest : List String) :
    opening (name :: rest) = ([], name :: rest) := by
  unfold opening
  split
  · exact absurd (List.cons.inj ‹_›).1 h.ne_empty
  · exact absurd (List.cons.inj ‹_›).1 h.ne_current
  · rfl

theorem bodyComponents_of_isName (h : ∀ name ∈ names, IsName name) :
    bodyComponents names = names.map .name := by
  have hkept : (names.filter fun name => !isFiller name) = names := by
    refine List.filter_eq_self.mpr fun name hname => ?_
    simp [isFiller, (h name hname).ne_empty, (h name hname).ne_current]
  rw [bodyComponents, hkept]
  refine List.map_congr_left fun name hname => ?_
  exact if_neg (h name hname).ne_parent

/-- **A path that is written from names** consists of them. -/
theorem components_ofSegments (h : ∀ name ∈ names, IsName name) :
    (ofSegments names).components = names.map .name := by
  cases names with
  | nil => rfl
  | cons name names =>
      rw [components, segments_ofSegments (List.cons_ne_nil name names) h,
        opening_of_isName (h name List.mem_cons_self)]
      exact bodyComponents_of_isName h

end Path

/-! ### Proper trees -/

namespace FileTree

/-- All entries have names, and those of one directory different ones. -/
inductive Proper : FileTree α → Prop where
  | file (content : α) : Proper (.file content)
  | directory {entries : List (String × FileTree α)}
      (hnames : ∀ entry ∈ entries, Path.IsName entry.1)
      (hentries : ∀ entry ∈ entries, Proper entry.2)
      (hnodup : (entries.map Prod.fst).Nodup) : Proper (.directory entries)

variable {t u : FileTree α} {names : List String}

@[simp] theorem proper_file (content : α) : (file content).Proper :=
  .file content

@[simp] theorem proper_directory_iff {entries : List (String × FileTree α)} :
    (directory entries).Proper ↔
      (∀ entry ∈ entries, Path.IsName entry.1 ∧ entry.2.Proper) ∧
        (entries.map Prod.fst).Nodup := by
  constructor
  · intro h
    cases h with
    | directory hnames hentries hnodup =>
        exact ⟨fun entry hentry => ⟨hnames entry hentry, hentries entry hentry⟩, hnodup⟩
  · rintro ⟨hentries, hnodup⟩
    exact .directory (fun entry hentry => (hentries entry hentry).1)
      (fun entry hentry => (hentries entry hentry).2) hnodup

/-- Looking up a name finds the entry that has it. -/
theorem lookup_eq_some_iff {entries : List (String × FileTree α)} {name : String}
    (hnodup : (entries.map Prod.fst).Nodup) :
    entries.lookup name = some t ↔ (name, t) ∈ entries := by
  rw [List.lookup_eq_some_iff]
  constructor
  · rintro ⟨before, after, rfl, -⟩
    exact List.mem_append_right before List.mem_cons_self
  · intro h
    obtain ⟨before, after, rfl⟩ := List.append_of_mem h
    refine ⟨before, after, rfl, fun entry hentry => ?_⟩
    rw [List.map_append] at hnodup
    obtain ⟨-, -, hdisjoint⟩ := List.nodup_append.mp hnodup
    have hne : entry.1 ≠ name := hdisjoint _ (List.mem_map_of_mem hentry) _ List.mem_cons_self
    exact bne_iff_ne.mpr hne.symm

/-- Names lead through the entry that has the name that they begin with. -/
theorem at?_of_mem {entries : List (String × FileTree α)} {name : String}
    (hnodup : (entries.map Prod.fst).Nodup) (h : (name, t) ∈ entries) :
    (directory entries).at? (name :: names) = t.at? names := by
  rw [at?, FileTree.entries, (lookup_eq_some_iff hnodup).mpr h, Option.bind_some]

/-- What names lead to in a proper tree is proper, and these are names. -/
theorem Proper.at? (h : t.Proper) (hat : t.at? names = some u) :
    u.Proper ∧ ∀ name ∈ names, Path.IsName name := by
  induction names generalizing t with
  | nil => exact ⟨Option.some.inj hat ▸ h, nofun⟩
  | cons name names ih =>
      obtain ⟨entry, hlookup, hbelow⟩ := Option.bind_eq_some_iff.mp hat
      cases h with
      | file => exact nomatch hlookup
      | directory hnames hentries hnodup =>
          have hmem := (lookup_eq_some_iff hnodup).mp hlookup
          obtain ⟨hproper, hrest⟩ := ih (hentries _ hmem) hbelow
          exact ⟨hproper, List.forall_mem_cons.mpr ⟨hnames _ hmem, hrest⟩⟩

/-- An entry inside directories with names makes a proper tree. -/
theorem proper_nested {entry : FileTree α} (hentry : entry.Proper)
    (h : ∀ name ∈ names, Path.IsName name) : (nested entry names).Proper := by
  induction names with
  | nil => exact hentry
  | cons name names ih =>
      obtain ⟨hname, hnames⟩ := List.forall_mem_cons.mp h
      refine .directory ?_ ?_ (List.nodup_cons.mpr ⟨List.not_mem_nil, .nil⟩)
      · simpa using hname
      · exact List.forall_mem_singleton.mpr (ih hnames)

end FileTree

/-- The entries of a directory on a proper disk make a proper tree; elsewhere there are none. -/
theorem Disk.proper_entries {disk : Disk} (h : disk.tree.Proper) (path : Path) :
    (FileTree.directory (disk.host.entries path)).Proper := by
  have hempty : (FileTree.directory ([] : List (String × FileTree (Option String)))).Proper :=
    .directory nofun nofun .nil
  dsimp only [Disk.host]
  cases hat : disk.at? path with
  | none => exact hempty
  | some t =>
      obtain ⟨names, -, hfound⟩ := Option.bind_eq_some_iff.mp hat
      cases (h.at? hfound).1 with
      | file => exact hempty
      | directory hnames hentries hnodup => exact .directory hnames hentries hnodup

/-! ### Chosen files -/

namespace Selection

/-- A search that has come along `above` to a tree reaches a file in it: the names that lead there
pass all tests. -/
structure Reaches (s : Selection) (above : List String) (t : FileTree α) (names : List String)
    (content : α) : Prop where
  leads : t.at? names = some (.file content)
  /-- No entry on the way is left out. -/
  enters : ∀ part, part ≠ [] → part <+: names → s.enters (above ++ part) = true
  chooses : s.chooses (above ++ names) = true

variable {s : Selection} {t : FileTree α} {entries : List (String × FileTree α)}
  {above names all : List String} {content : α}

theorem mem_collect_iff {chosen : List String × α} : chosen ∈ s.collect above entries ↔
    ∃ entry ∈ entries, chosen ∈ s.collectAt (above ++ [entry.1]) entry.2 := by
  rw [collect_eq_flatMap, List.mem_flatMap]

/-- In a directory a search goes on with one of the entries. -/
theorem reaches_directory_iff (hnodup : (entries.map Prod.fst).Nodup) :
    s.Reaches above (.directory entries) names content ↔
      ∃ entry ∈ entries, s.enters (above ++ [entry.1]) = true ∧
        ∃ rest, names = entry.1 :: rest ∧ s.Reaches (above ++ [entry.1]) entry.2 rest content := by
  constructor
  · intro h
    cases names with
    | nil => exact nomatch h.leads
    | cons name rest =>
        obtain ⟨t, hlookup, hleads⟩ := Option.bind_eq_some_iff.mp h.leads
        have hentry := (FileTree.lookup_eq_some_iff hnodup).mp hlookup
        have henters := h.enters [name] nofun (List.prefix_append [name] rest)
        refine ⟨(name, t), hentry, henters, rest, rfl, hleads, fun part _ hpart => ?_,
          List.append_cons above name rest ▸ h.chooses⟩
        rw [← List.append_cons]
        exact h.enters (name :: part) nofun (List.cons_prefix_cons.mpr ⟨rfl, hpart⟩)
  · rintro ⟨entry, hentry, henters, rest, rfl, h⟩
    refine ⟨(FileTree.at?_of_mem hnodup hentry).trans h.leads, fun part hne hpart => ?_,
      List.append_cons above entry.1 rest ▸ h.chooses⟩
    obtain rfl | ⟨later, rfl, hlater⟩ := List.prefix_cons_iff.mp hpart
    · exact absurd rfl hne
    · rw [List.append_cons]
      by_cases hnil : later = []
      · rwa [hnil, List.append_nil]
      · exact h.enters later hnil hlater

/-- **What is chosen at or below a place** is what the search reaches from there. -/
theorem mem_collectAt_iff (h : t.Proper) : (all, content) ∈ s.collectAt above t ↔
    s.enters above = true ∧ ∃ names, all = above ++ names ∧ s.Reaches above t names content := by
  induction h generalizing above with
  | file other =>
      rw [collectAt, List.mem_ite_nil_right, List.mem_singleton, Bool.and_eq_true, and_assoc]
      refine and_congr_right fun _ => ⟨?_, ?_⟩
      · rintro ⟨hchooses, ⟨⟩⟩
        refine ⟨[], (List.append_nil _).symm, rfl, fun part hne hpart => ?_, ?_⟩
        · exact absurd (List.prefix_nil.mp hpart) hne
        · rwa [List.append_nil]
      · rintro ⟨names, rfl, h⟩
        cases names with
        | nil =>
            cases h.leads
            have hchooses := h.chooses
            rw [List.append_nil] at hchooses ⊢
            exact ⟨hchooses, rfl⟩
        | cons name names => exact nomatch h.leads
  | @directory entries hnames hentries hnodup ih =>
      rw [collectAt, List.mem_ite_nil_right, mem_collect_iff]
      refine and_congr_right fun _ => ?_
      constructor
      · rintro ⟨entry, hentry, hchosen⟩
        obtain ⟨henters, rest, rfl, h⟩ := (ih entry hentry).mp hchosen
        exact ⟨entry.1 :: rest, by simp,
          (reaches_directory_iff hnodup).mpr ⟨entry, hentry, henters, rest, rfl, h⟩⟩
      · rintro ⟨names, rfl, h⟩
        obtain ⟨entry, hentry, henters, rest, rfl, hrest⟩ := (reaches_directory_iff hnodup).mp h
        exact ⟨entry, hentry, (ih entry hentry).mpr ⟨henters, rest, by simp, hrest⟩⟩

/-- **What is chosen from a directory** is what the search reaches; nothing is asked about the
directory itself. -/
theorem mem_select_iff (h : (FileTree.directory entries).Proper) :
    (names, content) ∈ s.select (.directory entries) ↔
      s.Reaches [] (.directory entries) names content := by
  cases h with
  | directory hnames hentries hnodup =>
      rw [mem_select, FileTree.entries, mem_collect_iff, reaches_directory_iff hnodup]
      refine exists_congr fun entry => and_congr_right fun hentry => ?_
      rw [mem_collectAt_iff (hentries entry hentry)]
      rfl

variable {a b : List String × α}

/-- **The names of a chosen file lead to it.** -/
theorem at?_of_mem_select (h : t.Proper) (ha : a ∈ s.select t) :
    t.at? a.1 = some (.file a.2) ∧ ∀ name ∈ a.1, Path.IsName name := by
  cases t with
  | file content => exact nomatch mem_select.mp ha
  | directory entries =>
      have hleads := ((mem_select_iff h).mp ha).leads
      exact ⟨hleads, (h.at? hleads).2⟩

/-- **A chosen file is determined by its path.** -/
theorem eq_of_mem_select (h : t.Proper) (ha : a ∈ s.select t) (hb : b ∈ s.select t)
    (hpath : (Path.ofSegments a.1).components = (Path.ofSegments b.1).components) : a = b := by
  obtain ⟨hatA, hnamesA⟩ := at?_of_mem_select h ha
  obtain ⟨hatB, hnamesB⟩ := at?_of_mem_select h hb
  rw [Path.components_ofSegments hnamesA, Path.components_ofSegments hnamesB] at hpath
  have hnames : a.1 = b.1 := Component.map_name_inj.mp hpath
  rw [hnames, hatB, Option.some.injEq, FileTree.file.injEq] at hatA
  exact Prod.ext hnames hatA.symm

end Selection

end PlaybookLint
