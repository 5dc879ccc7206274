import Mathlib.Data.Finset.Card
import PlaybookLint.NameSet
import PlaybookLint.Report

/-!
# The findings of a file

A report for people puts the findings of a file together, in the order of the list, and the files
into the order of the paths that are shown. It does so by taking in one finding after the other; the
paths in the list may come in any order, and different ones may look the same from the root of the
project. No finding is lost on the way, put in twice or put under the name of another file.

## Main definitions

* `Terminal.groupOf` - the findings of a list that are shown under a path.
* `Terminal.IsPartition` - the findings of a list by the paths that are shown.
* `Terminal.IsWorst` - the most serious severity of some findings.

## Main statements

* `Terminal.addToGroups_map` - one more finding goes to the end of its group.
* `Terminal.groups_eq` - the groups of a list, without reference to how they are built.
* `Terminal.isPartition_groups` - the groups are a stable partition of the list.
* `Terminal.isWorst_worst` - the severity of a group is its most serious one.
-/

namespace PlaybookLint.Report

/-- Every finding is counted under one severity. -/
theorem count_add_count_add_count (findings : List Finding) :
    count .error findings + count .warning findings + count .info findings = findings.length := by
  induction findings with
  | nil => rfl
  | cons f findings ih =>
      simp only [count, List.countP_cons, List.length_cons] at ih ⊢
      cases f.severity <;> simp <;> omega

namespace Terminal

variable {root : Path} {findings : List Finding}

/-! ### Groups -/

/-- The findings of a list that are shown under a path, in order. -/
def groupOf (root : Path) (findings : List Finding) (file : String) : FileGroup :=
  ⟨file, findings.filter fun f => shownFile root f = file⟩

@[simp] theorem file_groupOf (file : String) : (groupOf root findings file).file = file :=
  rfl

theorem groupOf_append_self (f : Finding) :
    groupOf root (findings ++ [f]) (shownFile root f) =
      ⟨shownFile root f, (groupOf root findings (shownFile root f)).findings ++ [f]⟩ := by
  simp [groupOf]

theorem groupOf_append_of_ne {f : Finding} {file : String} (h : shownFile root f ≠ file) :
    groupOf root (findings ++ [f]) file = groupOf root findings file := by
  simp [groupOf, h]

/-- **One more finding goes to the end of its group**, which is made if there is none. -/
theorem addToGroups_map {files : List String} (increasing : files.Pairwise (· < ·)) (f : Finding)
    (h : shownFile root f ∈ files ∨ (groupOf root findings (shownFile root f)).findings = []) :
    addToGroups (shownFile root f) f (files.map (groupOf root findings)) =
      (NameSet.insert (shownFile root f) files).map (groupOf root (findings ++ [f])) := by
  -- files behind one that is not before that of the finding are other files
  have hothers : ∀ {others : List String}, (∀ file ∈ others, shownFile root f < file) →
      others.map (groupOf root (findings ++ [f])) = others.map (groupOf root findings) := by
    intro others hlater
    refine List.map_congr_left fun file hfile => groupOf_append_of_ne ?_
    exact String.ne_of_lt (hlater file hfile)
  induction files with
  | nil =>
      have hempty := h.resolve_left List.not_mem_nil
      rw [List.map_nil, addToGroups, NameSet.insert, List.map_singleton, groupOf_append_self,
        hempty, List.nil_append]
  | cons file files ih =>
      obtain ⟨hlater, hrest⟩ := List.pairwise_cons.mp increasing
      rw [List.map_cons, addToGroups, NameSet.insert, file_groupOf]
      by_cases hlt : shownFile root f < file
      · have hall : ∀ other ∈ file :: files, shownFile root f < other := by
          intro other hother
          rcases List.mem_cons.mp hother with rfl | hother
          · exact hlt
          · exact String.lt_trans hlt (hlater other hother)
        have hempty := h.resolve_left fun hmem => String.lt_irrefl _ (hall _ hmem)
        rw [if_pos hlt, if_pos hlt, List.map_cons, hothers hall, groupOf_append_self, hempty,
          List.nil_append, List.map_cons]
      · by_cases heq : shownFile root f = file
        · subst heq
          rw [if_neg hlt, if_neg hlt, if_pos rfl, if_pos rfl, List.map_cons, hothers hlater,
            groupOf_append_self]
        · have hhere : shownFile root f ∈ files ∨
              (groupOf root findings (shownFile root f)).findings = [] :=
            h.imp_left fun hmem => (List.mem_cons.mp hmem).resolve_left heq
          rw [if_neg hlt, if_neg hlt, if_neg heq, if_neg heq, List.map_cons,
            groupOf_append_of_ne heq, ih hrest hhere]

/-- **The groups of a list**: one for each path that is shown, in the order of these. -/
theorem groups_eq (root : Path) (findings : List Finding) :
    groups root findings =
      (NameSet.ofList (findings.map (shownFile root))).map (groupOf root findings) := by
  induction findings using List.reverseRecOn with
  | nil => rfl
  | append_singleton findings f ih =>
      have hmem : shownFile root f ∈ NameSet.ofList (findings.map (shownFile root)) ∨
          (groupOf root findings (shownFile root f)).findings = [] := by
        by_cases hshown : shownFile root f ∈ findings.map (shownFile root)
        · exact .inl (NameSet.mem_ofList.mpr hshown)
        · refine .inr (List.filter_eq_nil_iff.mpr fun g hg => ?_)
          intro hsame
          exact hshown (List.mem_map.mpr ⟨g, hg, of_decide_eq_true hsame⟩)
      have hfiles :
          NameSet.insert (shownFile root f) (NameSet.ofList (findings.map (shownFile root))) =
            NameSet.ofList ((findings ++ [f]).map (shownFile root)) := by
        refine NameSet.eq_of_mem_iff (NameSet.pairwise_insert _ (NameSet.pairwise_ofList _))
          (NameSet.pairwise_ofList _) fun file => ?_
        simp [or_comm]
      rw [groups, List.foldl_append, List.foldl_cons, List.foldl_nil, ← groups, ih,
        addToGroups_map (NameSet.pairwise_ofList _) f hmem, hfiles]

/-- Taking in a finding moves no other one. -/
theorem flatMap_addToGroups_perm (file : String) (f : Finding) (groups : List FileGroup) :
    ((addToGroups file f groups).flatMap FileGroup.findings).Perm
      (groups.flatMap FileGroup.findings ++ [f]) := by
  induction groups with
  | nil => simp [addToGroups]
  | cons group groups ih =>
      rw [addToGroups]
      split_ifs
      · exact List.perm_append_comm
      · rw [List.flatMap_cons, List.flatMap_cons, List.append_assoc, List.append_assoc]
        exact List.perm_append_comm.append_left group.findings
      · rw [List.flatMap_cons, List.flatMap_cons, List.append_assoc]
        exact ih.append_left group.findings

/-- No finding is lost on the way into the groups, and none is put in twice. -/
theorem flatMap_groups_perm (root : Path) (findings : List Finding) :
    ((groups root findings).flatMap FileGroup.findings).Perm findings := by
  induction findings using List.reverseRecOn with
  | nil => exact .nil
  | append_singleton findings f ih =>
      rw [groups, List.foldl_append, List.foldl_cons, List.foldl_nil, ← groups]
      exact (flatMap_addToGroups_perm _ f _).trans (ih.append_right [f])

/-- Some groups hold the findings of a list by the paths that are shown, and in the order of the
list. -/
structure IsPartition (root : Path) (findings : List Finding) (groups : List FileGroup) : Prop where
  increasing : groups.Pairwise fun a b => a.file < b.file
  mem_iff : ∀ group, group ∈ groups ↔ group.findings ≠ [] ∧
    group.findings = findings.filter fun f => shownFile root f = group.file
  perm : (groups.flatMap FileGroup.findings).Perm findings
  length_eq : groups.length = (findings.map (shownFile root)).toFinset.card

/-- **The groups are a stable partition** of the list. -/
theorem isPartition_groups (root : Path) (findings : List Finding) :
    IsPartition root findings (groups root findings) where
  increasing := by
    rw [groups_eq, List.pairwise_map]
    exact NameSet.pairwise_ofList _
  mem_iff := by
    intro group
    rw [groups_eq, List.mem_map]
    constructor
    · rintro ⟨file, hfile, rfl⟩
      obtain ⟨f, hf, rfl⟩ := List.mem_map.mp (NameSet.mem_ofList.mp hfile)
      refine ⟨List.ne_nil_of_mem (List.mem_filter.mpr ⟨hf, decide_eq_true rfl⟩), rfl⟩
    · rintro ⟨hne, hgroup⟩
      obtain ⟨f, hf⟩ := List.exists_mem_of_ne_nil _ hne
      rw [hgroup, List.mem_filter, decide_eq_true_eq] at hf
      refine ⟨group.file, NameSet.mem_ofList.mpr (List.mem_map.mpr ⟨f, hf⟩), ?_⟩
      rw [groupOf, ← hgroup]
  perm := flatMap_groups_perm root findings
  length_eq := by
    have hnodup : (NameSet.ofList (findings.map (shownFile root))).Nodup :=
      (NameSet.pairwise_ofList _).imp fun h => String.ne_of_lt h
    have hsame : (NameSet.ofList (findings.map (shownFile root))).toFinset =
        (findings.map (shownFile root)).toFinset := by
      ext file
      rw [List.mem_toFinset, List.mem_toFinset, NameSet.mem_ofList]
    rw [groups_eq, List.length_map, ← List.toFinset_card_of_nodup hnodup, hsame]

/-! ### Severities -/

/-- The most serious severity of some findings. -/
structure IsWorst (severity : Severity) (findings : List Finding) : Prop where
  occurs : ∃ f ∈ findings, f.severity = severity
  rank_le : ∀ f ∈ findings, f.severity.rank ≤ severity.rank

theorem rank_worse (a b : Severity) : (worse a b).rank = max a.rank b.rank := by
  rw [worse]
  split_ifs <;> omega

theorem worse_eq_or (a b : Severity) : worse a b = a ∨ worse a b = b := by
  rw [worse]
  split_ifs <;> simp

/-- Looking through findings for a more serious one than `start`. -/
theorem foldl_worse (start : Severity) (findings : List Finding) :
    let worst := findings.foldl (fun worst f => worse worst f.severity) start
    start.rank ≤ worst.rank ∧ (∀ f ∈ findings, f.severity.rank ≤ worst.rank) ∧
      (worst = start ∨ ∃ f ∈ findings, f.severity = worst) := by
  induction findings generalizing start with
  | nil => exact ⟨Nat.le_refl _, nofun, .inl rfl⟩
  | cons f findings ih =>
      obtain ⟨hstart, hall, hfrom⟩ := ih (worse start f.severity)
      rw [rank_worse, Nat.max_le] at hstart
      refine ⟨hstart.1, List.forall_mem_cons.mpr ⟨hstart.2, hall⟩, ?_⟩
      rcases hfrom with hfrom | ⟨g, hg, hfrom⟩
      · rcases worse_eq_or start f.severity with heq | heq
        · exact .inl (hfrom.trans heq)
        · exact .inr ⟨f, List.mem_cons_self, (hfrom.trans heq).symm⟩
      · exact .inr ⟨g, List.mem_cons_of_mem f hg, hfrom⟩

/-- **The severity of a group** is the most serious one of its findings. -/
theorem isWorst_worst {group : FileGroup} (h : group.findings ≠ []) :
    IsWorst group.worst group.findings := by
  obtain ⟨-, hall, hfrom⟩ := foldl_worse .info group.findings
  refine ⟨?_, hall⟩
  rcases hfrom with hinfo | hfrom
  · -- where the least severity is the worst, there is no other one
    obtain ⟨f, hf⟩ := List.exists_mem_of_ne_nil _ h
    have hrank : f.severity.rank ≤ Severity.info.rank := hinfo ▸ hall f hf
    refine ⟨f, hf, ?_⟩
    rw [FileGroup.worst, hinfo]
    cases hseverity : f.severity <;> simp_all [Severity.rank]
  · exact hfrom

end Terminal

end PlaybookLint.Report
