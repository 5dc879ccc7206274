import PlaybookLint.Proofs.Matching
import PlaybookLint.Proofs.Words
import PlaybookLint.Rule.Naming

/-!
# Checks of names

The checks that the name of a variable has to pass, each said by itself, and the order in which they
are made. A name is reported for the first of them that it fails, unless it is exempt. A file of
variables is reported entry by entry, in the order of the entries.

## Main definitions

* `IsRoleName` - the roles that names are held to.
* `NameCheck` - a check; `NameCheck.all` - the checks in order; `NameCheck.Passes` - what they ask.
* `FirstFailure` - the first of some checks that fails.
* `Settles` - what is found by some checks, of which all may be left out for some keys.
* `Naming.Permits` - the keys that are not reported.
* `Naming.Reports` - the findings for some entries.

## Main statements

* `Settles.check_first`, `Settles.exempt_first` - a check, or an exemption, comes before others.
* `Naming.settles_keyFault?` - a key has no fault exactly if it is permitted, and the fault that it
  has is the first check that it fails.
* `Naming.onDocument_reports` - what is reported of a file of variables.
-/

namespace PlaybookLint.Rule

/-! ### Names of roles -/

theorem not_mem_of_isWord {c : Char} (hc : Text.isWordChar c = false) {cs : List Char}
    (h : Text.isWord cs = true) : c ∉ cs := by
  intro hmem
  have hword := List.all_eq_true.mp (Bool.and_eq_true_iff.mp h).2 c hmem
  rw [hc] at hword
  cases hword

/-- Three words with dots between them. -/
def IsQualified (cs : List Char) : Prop :=
  ∃ a b c, cs = a ++ '.' :: (b ++ '.' :: c) ∧
    Text.isWord a = true ∧ Text.isWord b = true ∧ Text.isWord c = true

/-- A role that names are held to: a word, or three words with dots between them. -/
def IsRoleName (cs : List Char) : Prop :=
  Text.isWord cs = true ∨ IsQualified cs

theorem isQualifiedName_iff {cs : List Char} : isQualifiedName cs = true ↔ IsQualified cs := by
  have hdot : Text.isWordChar '.' = false := by decide
  constructor
  · intro h
    rw [isQualifiedName] at h
    split at h
    next a b c hpieces =>
      have hjoined := Text.intercalate_splitAll '.' cs
      rw [hpieces] at hjoined
      simp only [Bool.and_eq_true] at h
      exact ⟨a, b, c, by simpa [List.intercalate] using hjoined.symm, h.1.1, h.1.2, h.2⟩
    next => cases h
  · rintro ⟨a, b, c, rfl, ha, hb, hc⟩
    -- no word holds a dot, so that the pieces are the words
    have hpieces : Text.splitAll '.' (a ++ '.' :: (b ++ '.' :: c)) = [a, b, c] := by
      rw [Text.splitAll_append_cons, Text.splitAll_append_cons,
        Text.splitAll_eq_singleton (not_mem_of_isWord hdot ha),
        Text.splitAll_eq_singleton (not_mem_of_isWord hdot hb),
        Text.splitAll_eq_singleton (not_mem_of_isWord hdot hc)]
      rfl
    rw [isQualifiedName, hpieces]
    simp [ha, hb, hc]

theorem mem_of_hasTemplate {cs : List Char} (h : hasTemplate cs = true) : '\x7b' ∈ cs := by
  fun_induction hasTemplate cs with
  | case1 c d cs ih =>
      rw [Bool.or_eq_true] at h
      rcases h with h | h
      · simp only [Bool.and_eq_true, decide_eq_true_eq] at h
        exact h.1.1 ▸ List.mem_cons_self
      · exact List.mem_cons_of_mem c (ih h)
  | case2 => cases h

/-- A role that names are held to is no template anyway. -/
theorem IsRoleName.not_hasTemplate {cs : List Char} (h : IsRoleName cs) :
    hasTemplate cs = false := by
  have hbrace : Text.isWordChar '\x7b' = false := by decide
  rw [Bool.eq_false_iff]
  intro htemplate
  have hmem := mem_of_hasTemplate htemplate
  rcases h with hword | ⟨a, b, c, rfl, ha, hb, hc⟩
  · exact not_mem_of_isWord hbrace hword hmem
  · have ha := not_mem_of_isWord hbrace ha
    have hb := not_mem_of_isWord hbrace hb
    have hc := not_mem_of_isWord hbrace hc
    simp [ha, hb, hc] at hmem

namespace RolePrefix

variable {role : RolePrefix} {name : List Char}

theorem isBinding_iff : role.isBinding = true ↔ IsRoleName role.value.toList := by
  have hname : isNameOrQualified role.value.toList = true ↔ IsRoleName role.value.toList := by
    rw [isNameOrQualified, Bool.or_eq_true, isQualifiedName_iff, IsRoleName]
  rw [isBinding, Bool.and_eq_true, hname, Bool.not_eq_true']
  exact ⟨And.right, fun h => ⟨h.not_hasTemplate, h⟩⟩

theorem begins_iff :
    role.begins name = true ↔ role.value.toList ++ ['_'] <+: name.dropWhile (· = '_') :=
  Text.isSome_dropPrefix?_iff

end RolePrefix

/-! ### Checks -/

/-- The checks that the name of a variable has to pass. -/
inductive NameCheck where
  | string
  | ascii
  | keyword
  | reserved
  | readOnly
  | pattern
  | rolePrefix
  deriving Repr, DecidableEq

namespace NameCheck

/-- The checks in the order in which they are made. -/
def all : List NameCheck :=
  [.string, .ascii, .keyword, .reserved, .readOnly, .pattern, .rolePrefix]

/-- The name of a check, as it stands in tags. -/
def tag : NameCheck → String
  | .string => "non-string"
  | .ascii => "non-ascii"
  | .keyword => "no-keyword"
  | .reserved => "no-reserved"
  | .readOnly => "read-only"
  | .pattern => "pattern"
  | .rolePrefix => "no-role-prefix"

/-- What a check asks of a key, in a file that may belong to a role. All checks but the first one
are about keys that are strings. -/
def Passes (naming : Naming) (role : Option String) (key : Node) : NameCheck → Prop
  | .string => key.isString = true
  | .ascii => ∀ name ∈ key.string?, ∀ c ∈ name.toList, c.toNat < 128
  | .keyword => ∀ name ∈ key.string?, name ∉ templateKeywords
  | .reserved => ∀ name ∈ key.string?, name ∉ reservedNames
  | .readOnly => ∀ name ∈ key.string?, name ∉ readOnlyNames
  | .pattern => ∀ name ∈ key.string?, ∃ j, naming.pattern.Matches name.toList.toArray 0 j
  | .rolePrefix => ∀ name ∈ key.string?, ∀ r ∈ role, IsRoleName r.toList →
    r.toList ++ ['_'] <+: name.toList.dropWhile (· = '_')

end NameCheck

/-- The first of some checks that fails, those before it being passed. -/
inductive FirstFailure (passes : NameCheck → Prop) : List NameCheck → NameCheck → Prop
  | here {check : NameCheck} {later : List NameCheck} (fails : ¬ passes check) :
      FirstFailure passes (check :: later) check
  | later {check first : NameCheck} {later : List NameCheck} (ok : passes first)
      (rest : FirstFailure passes later check) : FirstFailure passes (first :: later) check

/-- A result settles some checks: it is nothing exactly if `ok` holds, and a fault is the first
check that fails. What is exempt may fail any of them. -/
structure Settles (passes : NameCheck → Prop) (checks : List NameCheck) (ok : Prop)
    (result : Option NameFault) : Prop where
  eq_none_iff : result = none ↔ ok
  first : ∀ fault ∈ result, ∃ check, FirstFailure passes checks check ∧ fault.check = check.tag

namespace Settles

variable {passes : NameCheck → Prop} {check : NameCheck} {checks : List NameCheck}
  {ok exempt cond : Prop} [Decidable cond] {result : Option NameFault} {fault : NameFault}

theorem of_none : Settles passes checks True none where
  eq_none_iff := by simp
  first _ hfound := nomatch hfound

theorem of_passed (h : Settles passes checks ok result) (hpasses : passes check) :
    Settles passes (check :: checks) ok result where
  eq_none_iff := h.eq_none_iff
  first fault hfault :=
    have ⟨failing, hfailing, htag⟩ := h.first fault hfault
    ⟨failing, .later hpasses hfailing, htag⟩

theorem of_failed (hfails : ¬ passes check) (hfault : fault.check = check.tag) :
    Settles passes (check :: checks) False (some fault) where
  eq_none_iff := by simp
  first _ hfound := ⟨check, .here hfails, Option.some.inj hfound ▸ hfault⟩

/-- A check is made before others. -/
theorem check_first (h : Settles passes checks ok result) (hcond : cond ↔ ¬ passes check)
    (hfault : fault.check = check.tag) :
    Settles passes (check :: checks) (passes check ∧ ok) (if cond then some fault else result) := by
  by_cases hpasses : passes check
  · rw [if_neg (mt hcond.mp (not_not_intro hpasses)), eq_true hpasses, true_and]
    exact h.of_passed hpasses
  · rw [if_pos (hcond.mpr hpasses), eq_false hpasses, false_and]
    exact of_failed hpasses hfault

/-- What is exempt needs no more checks. -/
theorem exempt_first (h : Settles passes checks ok result) (hcond : cond ↔ exempt) :
    Settles passes checks (exempt ∨ ok) (if cond then none else result) := by
  by_cases hexempt : exempt
  · rw [if_pos (hcond.mpr hexempt), eq_true hexempt, true_or]
    exact of_none
  · rw [if_neg (mt hcond.mp hexempt), eq_false hexempt, false_or]
    exact h

end Settles

namespace Naming

variable {naming : Naming} {role : Option String} {key : Node}

/-- A key that is not reported. It is a string: an annotation, a special variable that may be set,
or a name that is not taken and that is a template or passes the other checks too. -/
def Permits (naming : Naming) (role : Option String) (key : Node) : Prop :=
  ∃ name, key.string? = some name ∧
    (name ∈ annotationKeys ∨ name ∈ settableNames ∨
      (∀ check ∈ [NameCheck.ascii, .keyword, .reserved, .readOnly],
          check.Passes naming role key) ∧
        (['\x7b', '\x7b'] <:+: name.toList ∨
          ∀ check ∈ [NameCheck.pattern, .rolePrefix], check.Passes naming role key))

/-- The findings for some entries of a document: one for each entry with a key that is not
permitted, in the order of the entries, on the line of the key and tagged with the first check that
fails. -/
inductive Reports (naming : Naming) (doc : Document) : List (Node × Node) → List Finding → Prop
  | nil : Reports naming doc [] []
  | permitted {e : Node × Node} {entries : List (Node × Node)} {found : List Finding}
      (permits : naming.Permits doc.role e.1) (rest : Reports naming doc entries found) :
      Reports naming doc (e :: entries) found
  | failed {e : Node × Node} {entries : List (Node × Node)} {found : List Finding}
      {check : NameCheck} {f : Finding} (permits : ¬ naming.Permits doc.role e.1)
      (first : FirstFailure (NameCheck.Passes naming doc.role e.1) NameCheck.all check)
      (file : f.file = doc.path) (line : f.line = e.1.line) (rule : f.rule = "var-naming")
      (tag : f.tag = "var-naming[" ++ check.tag ++ "]") (severity : f.severity = .error)
      (rest : Reports naming doc entries found) : Reports naming doc (e :: entries) (f :: found)

/-! ### Names -/

section Name

variable {name : String}

theorem contains_iff_fails (hkey : key.string? = some name) {names : List String} :
    names.contains name = true ↔ ¬ ∀ n ∈ key.string?, n ∉ names := by
  simp [hkey]

theorem not_ascii_iff (hkey : key.string? = some name) :
    (!name.toList.all fun c => c.toNat < 128) = true ↔
      ¬ NameCheck.Passes naming role key .ascii := by
  simp [NameCheck.Passes, hkey]

/-- A file does not refer to its role by a qualified name, so that the check of the pattern is never
lifted. -/
theorem not_pattern_iff (hkey : key.string? = some name) :
    (!naming.accepts name && !(role.map .ofRole).any RolePrefix.isQualified) = true ↔
      ¬ NameCheck.Passes naming role key .pattern := by
  have hreference : (role.map .ofRole).any RolePrefix.isQualified = false := by
    cases role <;> rfl
  simp [NameCheck.Passes, hkey, hreference, accepts, ← Pattern.matchesStart_iff]

theorem not_rolePrefix_iff {r : String} (hkey : key.string? = some name) :
    (!(RolePrefix.ofRole r).begins name.toList && (RolePrefix.ofRole r).isBinding) = true ↔
      ¬ NameCheck.Passes naming (some r) key .rolePrefix := by
  rw [Bool.and_eq_true, Bool.not_eq_true', ← Bool.not_eq_true, RolePrefix.begins_iff,
    RolePrefix.isBinding_iff]
  simp [NameCheck.Passes, hkey, RolePrefix.ofRole, and_comm]

theorem settles_rolePrefix (hkey : key.string? = some name) :
    Settles (NameCheck.Passes naming role key) [.rolePrefix]
      (NameCheck.Passes naming role key .rolePrefix)
      ((role.map .ofRole).bind (roleFault? · name)) := by
  cases role with
  | none =>
      have hpasses : NameCheck.Passes naming none key .rolePrefix := by simp [NameCheck.Passes]
      rw [eq_true hpasses]
      exact .of_none
  | some r =>
      rw [← and_true (NameCheck.Passes naming (some r) key .rolePrefix)]
      exact Settles.of_none.check_first (not_rolePrefix_iff hkey) rfl

theorem permits_iff (hkey : key.string? = some name) :
    naming.Permits role key ↔ (name ∈ annotationKeys ∨ name ∈ settableNames) ∨
      NameCheck.Passes naming role key .ascii ∧ NameCheck.Passes naming role key .keyword ∧
        NameCheck.Passes naming role key .reserved ∧ NameCheck.Passes naming role key .readOnly ∧
        (['\x7b', '\x7b'] <:+: name.toList ∨
          NameCheck.Passes naming role key .pattern ∧
            NameCheck.Passes naming role key .rolePrefix) := by
  simp only [Permits, hkey, Option.some.injEq, exists_eq_left', List.forall_mem_cons,
    List.not_mem_nil, false_implies, implies_true, and_true, or_assoc, and_assoc]

/-- **The checks of a name** are made in order, and some are left out if it is exempt. -/
theorem settles_fault? (hkey : key.string? = some name) :
    Settles (NameCheck.Passes naming role key) NameCheck.all.tail (naming.Permits role key)
      (naming.fault? (role.map .ofRole) name) := by
  have hexempt : (annotationKeys.contains name || settableNames.contains name) = true ↔
      name ∈ annotationKeys ∨ name ∈ settableNames := by
    simp only [Bool.or_eq_true, List.contains_iff_mem]
  -- one step for each branch of `fault?`, from the outside in
  rw [permits_iff hkey, fault?]
  refine .exempt_first ?_ hexempt
  refine .check_first ?_ (not_ascii_iff hkey) rfl
  refine .check_first ?_ (contains_iff_fails hkey) rfl
  refine .check_first ?_ (contains_iff_fails hkey) rfl
  refine .check_first ?_ (contains_iff_fails hkey) rfl
  refine .exempt_first ?_ Text.hasPiece_iff
  refine .check_first ?_ (not_pattern_iff hkey) rfl
  exact settles_rolePrefix hkey

end Name

/-- **The checks of a key**: a key that is no string has no name that could be checked. -/
theorem settles_keyFault? (naming : Naming) (role : Option String) (key : Node) :
    Settles (NameCheck.Passes naming role key) NameCheck.all (naming.Permits role key)
      (naming.keyFault? (role.map .ofRole) key) := by
  rw [keyFault?]
  cases hkey : key.string? with
  | none =>
      have hpermits : ¬ naming.Permits role key := fun ⟨name, hname, _⟩ => by
        rw [hkey] at hname
        cases hname
      have hstring : ¬ NameCheck.Passes naming role key .string := by
        simp [NameCheck.Passes, Tree.isString, hkey]
      rw [eq_false hpermits]
      exact .of_failed hstring rfl
  | some name =>
      have hstring : NameCheck.Passes naming role key .string := by
        simp [NameCheck.Passes, Tree.isString, hkey]
      exact (settles_fault? hkey).of_passed hstring

/-! ### Files of variables -/

theorem tag_finding {doc : Document} {line : Nat} {fault : NameFault} {source : String}
    {check : NameCheck} (h : fault.check = check.tag) :
    (finding doc line fault source).tag = "var-naming[" ++ check.tag ++ "]" := by
  have hopening : info.id ++ "[" = "var-naming[" := by decide
  rw [← h, ← hopening]
  rfl

/-- An entry adds a finding exactly if its key has a fault. -/
theorem reports_filterMap {doc : Document} (entries : List (Node × Node)) :
    naming.Reports doc entries (entries.filterMap fun (key, _) =>
      (naming.keyFault? (doc.role.map .ofRole) key).map fun fault =>
        finding doc key.line fault (varsSource key)) := by
  induction entries with
  | nil => exact .nil
  | cons e entries ih =>
      obtain ⟨key, value⟩ := e
      have hsettles := settles_keyFault? naming doc.role key
      cases hfault : naming.keyFault? (doc.role.map .ofRole) key with
      | none =>
          rw [List.filterMap_cons_none (by simp [hfault])]
          exact .permitted (hsettles.eq_none_iff.mp hfault) ih
      | some fault =>
          obtain ⟨check, hfirst, htag⟩ := hsettles.first fault hfault
          have hpermits : ¬ naming.Permits doc.role key := fun h => by
            rw [hsettles.eq_none_iff.mpr h] at hfault
            cases hfault
          rw [List.filterMap_cons_some (by simp [hfault]; rfl)]
          exact .failed hpermits hfirst rfl rfl rfl (tag_finding htag) rfl ih

/-- **What is reported of a file of variables.**  Whatever the pattern is, and whether or not the
file belongs to a role: each entry with a key that is not permitted is reported once, for the first
check that its key fails, and no other entry is. -/
theorem onDocument_reports (naming : Naming) {doc : Document} (hkind : doc.kind = .vars)
    {line : Nat} {note : Option (List String)} {entries : List (Node × Node)}
    (hdata : doc.data = .mapping line note entries) (hne : entries ≠ []) :
    ∃ found, naming.onDocument doc = .ok found ∧ naming.Reports doc entries found := by
  have htruthy : doc.data.isTruthy = true := by
    rw [hdata]
    simpa [Tree.isTruthy] using hne
  have hmapping : doc.data.isMapping = true := by
    rw [hdata]
    rfl
  refine ⟨_, ?_, reports_filterMap entries⟩
  have hentries : doc.data.entries = entries := by
    rw [hdata]
    rfl
  simp only [onDocument, hkind, htruthy, hmapping, onKeys, Option.map_some, Option.getD_some,
    hentries, roleOfDocument]
  rfl

/-- A file of the role `web`: keys that fail checks of all kinds, one of them twice, stand between
keys that are permitted. -/
theorem onDocument_reports_role :
    let key (line : Nat) (value : Scalar) : Node × Node :=
      (.scalar line none value, .scalar line none .null)
    let entries := [key 1 (.string "web_port"), key 2 (.string "class"), key 3 (.number "80"),
      key 4 (.string "Port"), key 5 (.string "Port"), key 6 (.string "ansible_user"),
      key 7 (.string "user")]
    let doc : Document :=
      ⟨⟨"roles/web/vars/main.yml"⟩, .vars, some "web", .mapping 1 none entries, .empty⟩
    let naming := (ofPattern? defaultPattern).getD default
    ∃ found, naming.onDocument doc = .ok found ∧ naming.Reports doc entries found ∧
      found.map (fun f => (f.line, f.tag)) =
        [(2, "var-naming[no-keyword]"), (3, "var-naming[non-string]"), (4, "var-naming[pattern]"),
          (5, "var-naming[pattern]"), (7, "var-naming[no-role-prefix]")] := by
  intro key entries doc naming
  have hdata : doc.data = .mapping 1 none entries := rfl
  obtain ⟨found, hok, hreports⟩ := onDocument_reports naming rfl hdata (List.cons_ne_nil _ _)
  refine ⟨found, hok, hreports, ?_⟩
  have hfound : (naming.onDocument doc).toOption.map (List.map fun f => (f.line, f.tag)) =
      some [(2, "var-naming[no-keyword]"), (3, "var-naming[non-string]"),
        (4, "var-naming[pattern]"), (5, "var-naming[pattern]"),
        (7, "var-naming[no-role-prefix]")] := by
    decide +kernel
  rw [hok] at hfound
  exact Option.some.inj hfound

end Naming

end PlaybookLint.Rule
