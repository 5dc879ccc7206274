import PlaybookLint.Proofs.Listing

/-!
# Where a path leads

A path that is continued with the names of entries leads on along these names. So a file that is
found from some directory has the same location from wherever it is found, however the directory is
spelled.

## Main statements

* `Path.segments_join` - the segments of a path that is continued.
* `FileTree.follow?_append`, `FileTree.follow?_names` - following segments.
* `Disk.location_join` - where a file is that is found from a directory.
-/

namespace PlaybookLint

/-! ### Segments -/

namespace Path

/-- A slash separates the segments before it from those after it. -/
theorem segments_slash (p q : Path) :
    segments ⟨p.text ++ "/" ++ q.text⟩ = p.segments ++ q.segments := by
  have htext : (p.text ++ "/" ++ q.text).toList = p.text.toList ++ '/' :: q.text.toList := by simp
  rw [segments, htext, Text.splitAll_append_cons, List.map_append, segments, segments]

/-- A path is its segments with slashes between them. -/
theorem ofSegments_segments (p : Path) : ofSegments p.segments = p := by
  have htext : ("/".intercalate p.segments).toList = p.text.toList := by
    rw [segments, String.toList_intercalate, List.map_map]
    simpa using Text.intercalate_splitAll '/' p.text.toList
  exact congrArg Path.mk (String.toList_inj.mp htext)

/-- Absolute paths begin with an empty segment that is not the only one. -/
theorem isAbsolute_iff {p : Path} :
    p.isAbsolute = true ↔ ∃ segment rest, p.segments = "" :: segment :: rest := by
  rw [isAbsolute, segments, decide_eq_true_eq]
  cases p.text.toList with
  | nil => simp [Text.splitAll]
  | cons c cs =>
      rw [Text.splitAll, List.head?_cons, Option.some_inj]
      by_cases hc : c = '/'
      · rw [if_pos hc]
        obtain ⟨piece, pieces, hpieces⟩ := List.exists_cons_of_ne_nil (Text.splitAll_ne_nil '/' cs)
        simp [hc, hpieces]
      · rw [if_neg hc]
        cases Text.splitAll '/' cs <;> simp [hc]

variable {below : List String}

/-- A path that is written from names is not absolute. -/
theorem isAbsolute_ofSegments (hne : below ≠ []) (hnames : ∀ name ∈ below, IsName name) :
    (ofSegments below).isAbsolute = false := by
  rw [← Bool.not_eq_true, isAbsolute_iff, segments_ofSegments hne hnames]
  rintro ⟨segment, rest, rfl⟩
  exact (hnames "" List.mem_cons_self).ne_empty rfl

/-- A path that is continued with names is absolute if it was. -/
theorem isAbsolute_join (root : Path) (hne : below ≠ []) (hnames : ∀ name ∈ below, IsName name) :
    (root.join (ofSegments below)).isAbsolute = root.isAbsolute := by
  have hbelow := isAbsolute_ofSegments hne hnames
  rw [join, hbelow, Bool.false_or]
  split
  next hempty =>
    have htext : root.text = "" := of_decide_eq_true hempty
    rw [hbelow, isAbsolute, htext]
    rfl
  next hnonempty =>
    have htext : root.text.toList ≠ [] := by simpa using hnonempty
    obtain ⟨c, cs, hcs⟩ := List.exists_cons_of_ne_nil htext
    split <;> simp [isAbsolute, hcs]

/-- **The segments of a path that is continued with names** are those of the path, without an empty
one at the end, and the names. -/
theorem segments_join (root : Path) (hne : below ≠ []) (hnames : ∀ name ∈ below, IsName name) :
    ∃ trunk, (root.join (ofSegments below)).segments = trunk ++ below ∧
      (root.segments = trunk ∨ root.segments = trunk ++ [""]) := by
  have hbelow := segments_ofSegments hne hnames
  rw [join, isAbsolute_ofSegments hne hnames, Bool.false_or]
  by_cases hempty : root.text = ""
  · rw [if_pos (decide_eq_true hempty)]
    refine ⟨[], hbelow, .inr ?_⟩
    rw [segments, hempty]
    rfl
  · rw [if_neg (mt of_decide_eq_true hempty)]
    by_cases hslash : root.text.toList.getLast? = some '/'
    · rw [if_pos hslash]
      obtain ⟨cs, hcs⟩ := List.getLast?_eq_some_iff.mp hslash
      have hroot : root = ⟨String.ofList cs ++ "/" ++ ""⟩ :=
        congrArg Path.mk (String.toList_inj.mp (by simp [hcs]))
      refine ⟨segments ⟨String.ofList cs⟩, ?_, .inr ?_⟩
      · rw [hroot, String.append_empty, segments_slash ⟨String.ofList cs⟩, hbelow]
      · rw [hroot, segments_slash ⟨String.ofList cs⟩ ⟨""⟩]
        rfl
    · rw [if_neg hslash]
      exact ⟨root.segments, by rw [segments_slash, hbelow], .inl rfl⟩

end Path

/-! ### Following segments -/

namespace FileTree

variable {t : FileTree α}

theorem at?_append (t : FileTree α) (names rest : List String) :
    t.at? (names ++ rest) = (t.at? names).bind fun u => u.at? rest := by
  induction names generalizing t with
  | nil => rfl
  | cons name names ih =>
      rw [List.cons_append, at?, at?, Option.bind_assoc]
      exact congrArg _ (funext fun entry => ih entry)

/-- A directory is not a file. -/
theorem ne_nil_of_at?_eq_file {entries : List (String × FileTree α)} {names : List String}
    {content : α} (h : (directory entries).at? names = some (.file content)) : names ≠ [] := by
  rintro rfl
  exact nomatch h

theorem follow?_append (names segments rest : List String) :
    t.follow? names (segments ++ rest) =
      (t.follow? names segments).bind fun names => t.follow? names rest := by
  induction segments generalizing names with
  | nil => rfl
  | cons segment segments ih =>
      rw [List.cons_append, follow?, follow?]
      split
      · split
        · exact ih names
        · split
          · split
            · rfl
            · exact ih names.dropLast
          · split
            · exact ih (names ++ [segment])
            · rfl
      · rfl

/-- Names that lead somewhere are followed there. -/
theorem follow?_names {names below : List String} (h : (t.at? (names ++ below)).isSome = true)
    (hnames : ∀ name ∈ below, Path.IsName name) :
    t.follow? names below = some (names ++ below) := by
  induction below generalizing names with
  | nil => rw [List.append_nil]; rfl
  | cons name below ih =>
      obtain ⟨u, hu, hrest⟩ := Option.bind_eq_some_iff.mp
        ((at?_append t names (name :: below)).symm.trans (Option.some_get h).symm)
      obtain ⟨entry, hentry, -⟩ := Option.bind_eq_some_iff.mp hrest
      have hdirectory : (t.at? names).any isDirectory = true := by
        rw [hu, Option.any_some]
        cases u with
        | file content => exact nomatch hentry
        | directory entries => rfl
      obtain ⟨hname, hbelow⟩ := List.forall_mem_cons.mp hnames
      rw [List.append_cons] at h ⊢
      have hthere : (t.at? (names ++ [name])).isSome = true := by
        rw [at?_append] at h
        exact Option.isSome_of_isSome_bind h
      rw [follow?, if_pos hdirectory, if_neg (by simp [hname.ne_empty, hname.ne_current]),
        if_neg hname.ne_parent, if_pos hthere, ih h hbelow]

/-- An empty segment at the end leads nowhere else. -/
theorem follow?_of_concat_empty {names other segments : List String}
    (h : t.follow? names (segments ++ [""]) = some other) :
    t.follow? names segments = some other := by
  rw [follow?_append] at h
  obtain ⟨there, hthere, h⟩ := Option.bind_eq_some_iff.mp h
  rw [follow?] at h
  split at h
  · rw [if_pos (.inl rfl)] at h
    exact hthere.trans h
  · exact nomatch h

end FileTree

/-! ### Files on a disk -/

namespace Disk

variable {disk : Disk} {root path : Path} {names below : List String}

theorem names?_of_segments {rest : List String}
    (h : path.segments = disk.base.segments ++ rest) :
    disk.names? path = disk.tree.follow? [] rest := by
  have hprefix : disk.base.segments.isPrefixOf path.segments = true := by
    rw [h]
    exact List.isPrefixOf_iff_prefix.mpr (List.prefix_append _ rest)
  rw [names?, segments?, if_pos hprefix, h, List.drop_left]
  rfl

/-- A path that is not absolute is followed from the working directory. -/
theorem names?_of_not_isAbsolute (hbase : disk.base.isAbsolute = true)
    (h : path.isAbsolute = false) : disk.names? path = disk.tree.follow? [] path.segments := by
  have hprefix : ¬ disk.base.segments.isPrefixOf path.segments = true := by
    intro hprefix
    obtain ⟨rest, hrest⟩ := List.isPrefixOf_iff_prefix.mp hprefix
    obtain ⟨segment, others, hsegments⟩ := Path.isAbsolute_iff.mp hbase
    have habsolute : path.isAbsolute = true := by
      refine Path.isAbsolute_iff.mpr ⟨segment, others ++ rest, ?_⟩
      rw [← hrest, hsegments]
      rfl
    exact Bool.false_ne_true (h.symm.trans habsolute)
  rw [names?, segments?, if_neg hprefix, h, if_neg Bool.false_ne_true]
  rfl

/-- An absolute path that leads somewhere leads there from the working directory. -/
theorem exists_segments_of_isAbsolute (h : path.isAbsolute = true)
    (hnames : disk.names? path = some names) : ∃ rest,
      path.segments = disk.base.segments ++ rest ∧ disk.tree.follow? [] rest = some names := by
  rw [names?, segments?] at hnames
  split at hnames
  · next hprefix =>
      obtain ⟨rest, hrest⟩ := List.isPrefixOf_iff_prefix.mp hprefix
      rw [← hrest, List.drop_left] at hnames
      exact ⟨rest, hrest.symm, hnames⟩
  · exact nomatch hnames

/-- Names that lead to a file from where segments lead. -/
theorem follow?_append_names {segments : List String}
    (h : disk.tree.follow? [] segments = some names)
    (hbelow : ∀ name ∈ below, Path.IsName name)
    (hfile : (disk.tree.at? (names ++ below)).isSome = true) :
    disk.tree.follow? [] (segments ++ below) = some (names ++ below) := by
  rw [FileTree.follow?_append, h, Option.bind_some, FileTree.follow?_names hfile hbelow]

/-- What is found among the entries of a directory is what is below the directory. -/
theorem at?_entries_iff {t : FileTree (Option String)} (hne : below ≠ []) :
    (FileTree.directory (disk.host.entries root)).at? below = some t ↔
      ∃ above, disk.names? root = some above ∧ disk.tree.at? (above ++ below) = some t := by
  obtain ⟨name, rest, rfl⟩ := List.exists_cons_of_ne_nil hne
  have hentries : disk.host.entries root = ((disk.at? root).map FileTree.entries).getD [] := rfl
  rw [hentries, at?, FileTree.at?, FileTree.entries]
  cases disk.names? root with
  | none => simp
  | some above =>
      rw [Option.bind_some]
      simp only [Option.some.injEq, exists_eq_left', FileTree.at?_append]
      cases disk.tree.at? above with
      | none => simp
      | some there => exact Iff.rfl

/-- If the working directory is spelled with a slash at its end, it is not the beginning of a path
that goes on with names. -/
theorem names?_eq_none {trunk : List String} (htrunk : disk.base.segments = trunk ++ [""])
    (hpath : path.segments = trunk ++ below) (habsolute : path.isAbsolute = true)
    (hbelow : ∀ name ∈ below, Path.IsName name) : disk.names? path = none := by
  cases hnames : disk.names? path with
  | none => rfl
  | some names =>
      obtain ⟨rest, hrest, -⟩ := exists_segments_of_isAbsolute habsolute hnames
      rw [hpath, htrunk, List.append_assoc] at hrest
      have hempty : "" ∈ below := List.append_cancel_left hrest ▸ List.mem_cons_self
      exact absurd rfl (hbelow "" hempty).ne_empty

/-- **A file is where it is**, from wherever it is found. -/
theorem location_join (hbase : disk.base.isAbsolute = true) (hroot : disk.names? root = some names)
    (hne : below ≠ []) (hbelow : ∀ name ∈ below, Path.IsName name)
    (hfile : (disk.tree.at? (names ++ below)).isSome = true) :
    let path := root.join (Path.ofSegments below)
    (disk.host.canonical? path).getD path = disk.pathTo (names ++ below) := by
  intro path
  have hcanonical : ∀ segments, disk.names? path = disk.tree.follow? [] (segments ++ below) →
      disk.tree.follow? [] segments = some names →
      (disk.host.canonical? path).getD path = disk.pathTo (names ++ below) := by
    intro segments hnames hsegments
    change ((disk.names? path).map disk.pathTo).getD path = _
    rw [hnames, follow?_append_names hsegments hbelow hfile]
    rfl
  have hjoin := Path.isAbsolute_join root hne hbelow
  obtain ⟨trunk, hpath, htrunk⟩ := Path.segments_join root hne hbelow
  cases habsolute : root.isAbsolute with
  | false =>
      rw [names?_of_not_isAbsolute hbase habsolute] at hroot
      refine hcanonical trunk ?_ ?_
      · rw [names?_of_not_isAbsolute hbase (hjoin.trans habsolute), hpath]
      · obtain hsegments | hsegments := htrunk
        · rwa [hsegments] at hroot
        · rw [hsegments] at hroot
          exact FileTree.follow?_of_concat_empty hroot
  | true =>
      obtain ⟨rest, hrest, hfollow⟩ := exists_segments_of_isAbsolute habsolute hroot
      obtain hsegments | hsegments := htrunk
      · refine hcanonical rest (names?_of_segments ?_) hfollow
        rw [hpath, ← hsegments, hrest, List.append_assoc]
      · obtain rfl | ⟨front, last, rfl⟩ := List.eq_nil_or_concat rest
        · -- the root is the working directory, spelled with a slash at its end
          rw [List.append_nil] at hrest
          have hsame : root = disk.base := by
            rw [← Path.ofSegments_segments root, hrest, Path.ofSegments_segments]
          have hnone := names?_eq_none (hrest.symm.trans hsegments) hpath
            (hjoin.trans habsolute) hbelow
          cases hfollow
          change ((disk.names? path).map disk.pathTo).getD path = _
          rw [hnone, List.nil_append, pathTo, if_neg hne, ← hsame]
          rfl
        · rw [List.concat_eq_append, hsegments, ← List.append_assoc] at hrest
          obtain ⟨hfront, hlast⟩ := List.append_inj' hrest rfl
          cases hlast
          refine hcanonical front (names?_of_segments ?_) ?_
          · rw [hpath, hfront, List.append_assoc]
          · rw [List.concat_eq_append] at hfollow
            exact FileTree.follow?_of_concat_empty hfollow

end Disk

end PlaybookLint
