import PlaybookLint.Proofs.NameChecks

/-!
# The recommended prefix

A name that does not begin with its role is reported, and the message says what it is to begin with.
Whoever follows it is reported again if the role itself begins with an underscore: the underscores
that a name begins with are dropped before it is compared with the role, and those of the role are
not. No name is accepted for such a role. For all other roles the recommended prefix is accepted.

## Main definitions

* `Naming.IsExempt` - the names about whose role nothing is said.
* `Naming.IsHeldTo` - a name is reported for its role.

## Main statements

* `RolePrefix.begins_recommended_iff` - the roles for which the recommended prefix is one.
* `Naming.fault?_eq_or` - the check of the role comes after all others.
* `Naming.isHeldTo_iff` - the names that are reported for their role.
* `recommended_prefix_rejected_iff` - when the recommended prefix is rejected.
-/

namespace PlaybookLint.Rule

/-! ### Roles that begin with an underscore -/

namespace RolePrefix

variable {role : RolePrefix}

/-- No name begins with a role that begins with an underscore. -/
theorem begins_of_underscore (h : role.value.toList.head? = some '_') (name : List Char) :
    role.begins name = false := by
  obtain ⟨cs, hvalue⟩ := List.head?_eq_some_iff.mp h
  rw [← Bool.not_eq_true, begins_iff, hvalue]
  rintro ⟨rest, hname⟩
  -- what is left of the name does not begin with an underscore
  have hfirst : (name.dropWhile (· = '_')).head? = some '_' := by rw [← hname]; rfl
  exact absurd (List.head?_dropWhile_not (· = '_') name) (by simp [hfirst])

/-- **The recommended prefix** is one for all roles but those that begin with an underscore. -/
theorem begins_recommended_iff (hne : role.value.toList ≠ []) (rest : List Char) :
    role.begins (role.value.toList ++ '_' :: rest) = false ↔
      role.value.toList.head? = some '_' := by
  refine ⟨fun h => ?_, fun h => begins_of_underscore h _⟩
  by_contra hfirst
  obtain ⟨c, cs, hvalue⟩ := List.exists_cons_of_ne_nil hne
  have hc : c ≠ '_' := by
    rintro rfl
    exact hfirst (by rw [hvalue]; rfl)
  rw [← Bool.not_eq_true, begins_iff, hvalue, List.cons_append, List.cons_append,
    List.dropWhile_cons_of_neg (by simpa using hc)] at h
  exact h ⟨rest, by simp⟩

/-- A role that was called by a qualified name has no name of its own. -/
theorem isQualified_eq_false {name : String} (h : role = .ofRole name ∨ role = .ofReference name)
    (hne : role.value.toList ≠ []) : role.isQualified = false := by
  rcases h with rfl | rfl
  · rfl
  · have hdot : '.' ∉ name.toList := by
      intro hmem
      rw [ofReference, if_pos (List.contains_iff_mem.mpr hmem)] at hne
      exact hne rfl
    show isQualifiedName name.toList = false
    rw [isQualifiedName, Text.splitAll_eq_singleton hdot]

end RolePrefix

theorem not_isRoleName_nil : ¬ IsRoleName [] := by
  rintro (hword | ⟨a, b, c, hempty, -⟩)
  · exact nomatch hword
  · exact absurd hempty.symm (by simp)

theorem FirstFailure.fails {passes : NameCheck → Prop} {checks : List NameCheck} {check : NameCheck}
    (h : FirstFailure passes checks check) : ¬ passes check := by
  induction h with
  | here hfails => exact hfails
  | later _ _ ih => exact ih

/-! ### Names that are reported for their role -/

namespace Naming

variable {naming : Naming} {role : RolePrefix} {name : String}

/-- Adding a check after others. -/
theorem check_or {cond : Prop} [Decidable cond] {result base rest : Option NameFault}
    {fault : NameFault} (h : result = base.or rest) :
    (if cond then some fault else result) = (if cond then some fault else base).or rest := by
  by_cases hcond : cond
  · rw [if_pos hcond, if_pos hcond, Option.some_or]
  · rw [if_neg hcond, if_neg hcond, h]

/-- Adding a check that is left out if something is exempt. -/
theorem exempt_or {cond : Prop} [Decidable cond] {result base rest : Option NameFault}
    (hrest : cond → rest = none) (h : ¬ cond → result = base.or rest) :
    (if cond then none else result) = (if cond then none else base).or rest := by
  by_cases hcond : cond
  · rw [if_pos hcond, if_pos hcond, hrest hcond, Option.or_none]
  · rw [if_neg hcond, if_neg hcond, h hcond]

/-- Nothing is said about the role of a name: it is an annotation, a special variable that may be
set, or a template. -/
def IsExempt (name : String) : Prop :=
  name ∈ annotationKeys ∨ name ∈ settableNames ∨ ['\x7b', '\x7b'] <:+: name.toList

/-- **The check of the role comes last**: what is wrong with a name for a role is what is wrong with
it anyway, or else that it does not begin with the role. -/
theorem fault?_eq_or (hqualified : role.isQualified = false) [Decidable (IsExempt name)] :
    naming.fault? (some role) name =
      (naming.fault? none name).or (if IsExempt name then none else roleFault? role name) := by
  rw [fault?, fault?]
  refine exempt_or (fun hlisted => if_pos ?_) fun hlisted => ?_
  · rw [Bool.or_eq_true, List.contains_iff_mem, List.contains_iff_mem] at hlisted
    exact hlisted.elim .inl fun hsettable => .inr (.inl hsettable)
  refine check_or (check_or (check_or (check_or ?_)))
  refine exempt_or (fun htemplate => if_pos (.inr (.inr (Text.hasPiece_iff.mp htemplate))))
    fun htemplate => ?_
  have hexempt : ¬ IsExempt name := by
    rintro (hmem | hmem | hmem)
    · exact hlisted (by simp [hmem])
    · exact hlisted (by simp [hmem])
    · exact htemplate (Text.hasPiece_iff.mpr hmem)
  rw [if_neg hexempt, Option.any_some, Option.any_none, hqualified]
  exact check_or rfl

/-- Without a role no name is reported for it. -/
theorem check_ne_of_none {fault : NameFault} (h : naming.fault? none name = some fault) :
    fault.check ≠ "no-role-prefix" := by
  intro hcheck
  have hsettles := @settles_fault? naming none (.string 1 name) name rfl
  obtain ⟨check, hfirst, htag⟩ := hsettles.first fault h
  have hfails := hfirst.fails
  rw [hcheck] at htag
  cases check with
  | rolePrefix => exact hfails (fun _ _ _ hr => nomatch hr)
  | _ => exact absurd htag (by decide)

/-- A name is reported for its role. -/
def IsHeldTo (naming : Naming) (role : RolePrefix) (name : String) : Prop :=
  ∃ fault, naming.fault? (some role) name = some fault ∧ fault.check = "no-role-prefix"

/-- **A name is reported for its role** if it does not begin with it, and there is nothing else to
be said about it. -/
theorem isHeldTo_iff (hqualified : role.isQualified = false) :
    naming.IsHeldTo role name ↔ role.begins name.toList = false ∧ IsRoleName role.value.toList ∧
      naming.fault? none name = none ∧ ¬ IsExempt name := by
  classical
  rw [IsHeldTo, fault?_eq_or hqualified, ← RolePrefix.isBinding_iff]
  cases hother : naming.fault? none name with
  | some fault =>
      have hne := check_ne_of_none hother
      simp [hne]
  | none =>
      by_cases hexempt : IsExempt name
      · simp [hexempt]
      · rw [Option.none_or, if_neg hexempt, roleFault?]
        cases role.begins name.toList <;> cases role.isBinding <;>
          simp [hexempt, NameFault.check]

/-- Names are reported only for roles that they are held to. -/
theorem isRoleName_of_isHeldTo (h : naming.IsHeldTo role name) : IsRoleName role.value.toList := by
  obtain ⟨fault, hfault, hcheck⟩ := h
  rw [← RolePrefix.isBinding_iff]
  by_contra hbinding
  have hnone : roleFault? role name = none := by simp [roleFault?, hbinding]
  rw [fault?, Option.bind_some, hnone] at hfault
  -- what is left are the other checks
  split_ifs at hfault <;> cases hfault <;> exact absurd hcheck (by simp [NameFault.check])

/-- **When the recommended prefix is rejected.**  Take a role by its name or by a reference to it,
and a name that begins with the role and an underscore. The name is reported for the role exactly if
the role begins with an underscore itself, is one that names are held to, and nothing else is to be
said about the name. For such a role there is no name at all that begins with it. -/
theorem recommended_prefix_rejected_iff (naming : Naming) {role : RolePrefix} {r : String}
    (hrole : role = .ofRole r ∨ role = .ofReference r) (x : String) :
    let name := role.value ++ "_" ++ x
    (naming.IsHeldTo role name ↔ role.value.toList.head? = some '_' ∧
      IsRoleName role.value.toList ∧ naming.fault? none name = none ∧ ¬ IsExempt name) ∧
      (role.value.toList.head? = some '_' → ∀ other, role.begins other = false) := by
  intro name
  refine ⟨?_, RolePrefix.begins_of_underscore⟩
  by_cases hne : role.value.toList = []
  · have hnot : ¬ IsRoleName role.value.toList := hne ▸ not_isRoleName_nil
    exact iff_of_false (mt isRoleName_of_isHeldTo hnot) fun h => hnot h.2.1
  · have hname : name.toList = role.value.toList ++ '_' :: x.toList := by
      simp [name, String.toList_append]
    rw [isHeldTo_iff (RolePrefix.isQualified_eq_false hrole hne), hname,
      RolePrefix.begins_recommended_iff hne]

/-- The theorem applies to a role that is referred to by a path. The recommended prefix is accepted;
with another rest the name is reported, but not for the role. -/
theorem recommended_prefix_rejected_web :
    let role := RolePrefix.ofReference "roles/web"
    let naming := (ofPattern? defaultPattern).getD default
    role.value = "web" ∧ ¬ naming.IsHeldTo role (role.value ++ "_" ++ "port") ∧
      ¬ naming.IsHeldTo role (role.value ++ "_" ++ "Größe") ∧
      naming.fault? (some role) (role.value ++ "_" ++ "Größe") = some (.nonAscii "web_Größe") := by
  intro role naming
  have hvalue : role.value = "web" := by decide
  have hfirst : role.value.toList.head? ≠ some '_' := by
    rw [hvalue]
    decide
  exact ⟨hvalue,
    fun h => hfirst ((recommended_prefix_rejected_iff naming (.inr rfl) "port").1.mp h).1,
    fun h => hfirst ((recommended_prefix_rejected_iff naming (.inr rfl) "Größe").1.mp h).1,
    by decide⟩

/-- In a role that begins with an underscore a name is reported that does begin with the recommended
prefix. -/
theorem recommended_prefix_of_underscore :
    let role := RolePrefix.ofRole "_web"
    let naming := (ofPattern? defaultPattern).getD default
    let fault := NameFault.rolePrefix role.value
    roleOf ⟨"roles/_web/vars/main.yml"⟩ = some "_web" ∧
      fault.message = "Variables names from within roles should use _web_ as a prefix." ∧
      role.value ++ "_" ++ "port" = "_web_port" ∧
      naming.fault? (some role) "_web_port" = some fault := by
  decide +kernel

end Naming

end PlaybookLint.Rule
