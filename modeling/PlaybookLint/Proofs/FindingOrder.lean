import Mathlib.Order.Defs.LinearOrder
import PlaybookLint.Finding

/-!
# Findings in order

Findings are compared by file, line, tag and message, and files by the components of their paths.
This is a lawful order on these four, so that arranging a list makes it strictly increasing. Where
the four determine a finding, arranging loses none, and the result depends on nothing but which
findings there are.

## Main definitions

* `Finding.Determined` - in a list, what is compared determines a finding.

## Main statements

* `Finding.pairwise_arrange` - arranged findings are strictly increasing.
* `Finding.mem_arrange_iff` - arranging loses no finding.
-/

namespace PlaybookLint

/-- Of two things one comes first, or they are not told apart. -/
theorem isLE_or_isLE {cmp : α → α → Ordering} [Std.OrientedCmp cmp] (a b : α) :
    ((cmp a b).isLE || (cmp b a).isLE) = true := by
  have hswap : cmp b a = (cmp a b).swap := Std.OrientedCmp.eq_swap
  rw [hswap]
  cases cmp a b <;> rfl

/-! ### Components and paths -/

namespace Component

theorem compare_eq_compareLex :
    Component.compare = compareLex (compareOn rank) (compareOn fun c => c.name?.getD "") :=
  rfl

instance : Std.TransCmp Component.compare := by
  rw [compare_eq_compareLex]
  infer_instance

/-- Components are compared by all there is to them. -/
theorem eq_of_compare {a b : Component} (h : a.compare b = .eq) : a = b := by
  rw [Component.compare, Ordering.then_eq_eq, Std.LawfulEqOrd.compare_eq_iff_eq,
    Std.LawfulEqOrd.compare_eq_iff_eq] at h
  obtain ⟨hrank, hname⟩ := h
  cases a <;> cases b <;> simp_all [rank, name?]

instance : Std.LawfulEqCmp Component.compare where
  eq_of_compare := eq_of_compare

end Component

namespace Path

theorem compareComponents_eq_compareLex (as bs : List Component) :
    compareComponents as bs = List.compareLex Component.compare as bs := by
  induction as generalizing bs with
  | nil => cases bs <;> rfl
  | cons a as ih =>
      cases bs with
      | nil => rfl
      | cons b bs =>
          rw [compareComponents, List.compareLex, ih]
          cases a.compare b <;> rfl

/-- Paths are ordered as the lists of their components. -/
instance : Ord Path where
  compare := Path.compare

theorem compare_eq_compareLex (p q : Path) :
    Ord.compare p q = List.compareLex Component.compare p.components q.components :=
  compareComponents_eq_compareLex p.components q.components

instance : Std.TransOrd Path where
  eq_swap {p q} := by
    rw [compare_eq_compareLex, compare_eq_compareLex]
    exact Std.OrientedCmp.eq_swap
  isLE_trans {p q r} hpq hqr := by
    rw [compare_eq_compareLex] at hpq hqr ⊢
    exact Std.TransCmp.isLE_trans hpq hqr

/-- Paths are not told apart if they have the same components. -/
theorem compare_eq_eq_iff {p q : Path} : Ord.compare p q = .eq ↔ p.components = q.components := by
  rw [compare_eq_compareLex]
  exact Std.LawfulEqCmp.compare_eq_iff_eq

end Path

/-! ### Findings -/

namespace Finding

theorem compare_eq_compareLex :
    Finding.compare = compareLex (compareOn file)
      (compareLex (compareOn line) (compareLex (compareOn tag) (compareOn message))) :=
  rfl

instance : Std.TransCmp Finding.compare := by
  rw [compare_eq_compareLex]
  infer_instance

/-- Findings are not told apart if they agree in path, line, tag and message. -/
theorem compare_eq_eq_iff {f g : Finding} :
    f.compare g = .eq ↔ f.file.components = g.file.components ∧ f.line = g.line ∧ f.tag = g.tag ∧
      f.message = g.message := by
  rw [Finding.compare, Ordering.then_eq_eq, Ordering.then_eq_eq, Ordering.then_eq_eq,
    Std.LawfulEqOrd.compare_eq_iff_eq, Std.LawfulEqOrd.compare_eq_iff_eq,
    Std.LawfulEqOrd.compare_eq_iff_eq]
  exact and_congr_left fun _ => Path.compare_eq_eq_iff

/-- One finding comes before another one. -/
def Before (f g : Finding) : Prop :=
  f.compare g = .lt

theorem Before.trans {f g h : Finding} (hfg : f.Before g) (hgh : g.Before h) : f.Before h :=
  Std.TransCmp.lt_trans hfg hgh

theorem not_before_self (f : Finding) : ¬ f.Before f := by
  have hself : f.compare f = .eq := Std.ReflCmp.compare_self
  rw [Before, hself]
  exact nofun

instance : Std.Asymm Before where
  asymm f _ hfg hgf := f.not_before_self (hfg.trans hgf)

theorem before_of_isLE {f g : Finding} (h : (f.compare g).isLE = true) (hne : f.compare g ≠ .eq) :
    f.Before g :=
  (Ordering.isLE_iff_eq_lt_or_eq_eq.mp h).resolve_right hne

/-! ### Sorting -/

theorem pairwise_sort (found : List Finding) :
    (sort found).Pairwise fun f g => (f.compare g).isLE = true :=
  List.pairwise_mergeSort (fun _ _ _ => Std.TransCmp.isLE_trans) isLE_or_isLE found

/-! ### Dropping what is not told apart -/

/-- **Dropping makes increasing lists strictly increasing.**  What is kept comes strictly after the
finding before it. -/
theorem pairwise_dedupFrom {previous : Option Finding} {found : List Finding}
    (h : found.Pairwise fun f g => (f.compare g).isLE = true)
    (hprevious : ∀ p ∈ previous, ∀ f ∈ found, (p.compare f).isLE = true) :
    (dedupFrom previous found).Pairwise Before ∧
      ∀ p ∈ previous, ∀ f ∈ dedupFrom previous found, p.Before f := by
  fun_induction dedupFrom previous found with
  | case1 => exact ⟨.nil, fun _ _ => List.forall_mem_nil _⟩
  | case2 previous f rest hsame ih =>
      obtain ⟨-, hrest⟩ := List.pairwise_cons.mp h
      exact ih hrest fun p hp g hg => hprevious p hp g (List.mem_cons_of_mem f hg)
  | case3 previous f rest hdifferent ih =>
      obtain ⟨hf, hrest⟩ := List.pairwise_cons.mp h
      have hfrom : ∀ p ∈ some f, ∀ g ∈ rest, (p.compare g).isLE = true := by
        intro p hp g hg
        cases hp
        exact hf g hg
      obtain ⟨hkept, hafter⟩ := ih hrest hfrom
      have hnext : ∀ g ∈ dedupFrom (some f) rest, f.Before g := hafter f rfl
      refine ⟨List.pairwise_cons.mpr ⟨hnext, hkept⟩, fun p hp => ?_⟩
      have hpf : p.Before f := by
        refine before_of_isLE (hprevious p hp f List.mem_cons_self) fun heq => hdifferent ?_
        rw [Option.mem_def.mp hp, Option.any_some, heq]
        rfl
      exact List.forall_mem_cons.mpr ⟨hpf, fun g hg => hpf.trans (hnext g hg)⟩

/-- **Arranged findings are strictly increasing**, whatever they are. -/
theorem pairwise_arrange (found : List Finding) : (arrange found).Pairwise Before := by
  have hnone : ∀ p ∈ (none : Option Finding), ∀ f ∈ sort found, (p.compare f).isLE = true := by simp
  exact (pairwise_dedupFrom (pairwise_sort found) hnone).1

/-- What is compared determines a finding of the list. -/
def Determined (found : List Finding) : Prop :=
  ∀ f ∈ found, ∀ g ∈ found, f.compare g = .eq → f = g

theorem Determined.mono {found more : List Finding} (h : Determined more)
    (hsubset : ∀ f ∈ found, f ∈ more) : Determined found :=
  fun f hf g hg => h f (hsubset f hf) g (hsubset g hg)

/-- What is dropped is kept where it was found first. -/
theorem mem_dedupFrom {previous : Option Finding} {found : List Finding}
    (h : Determined (previous.toList ++ found)) :
    ∀ f ∈ found, some f = previous ∨ f ∈ dedupFrom previous found := by
  fun_induction dedupFrom previous found with
  | case1 => exact List.forall_mem_nil _
  | case2 previous f rest hsame ih =>
      obtain ⟨p, rfl, hp⟩ := (Option.any_eq_true _ _).mp hsame
      have heq : p = f := h p (by simp) f (by simp) (eq_of_beq hp)
      refine List.forall_mem_cons.mpr ⟨.inl (congrArg some heq.symm), ?_⟩
      exact ih (h.mono fun g hg => by grind)
  | case3 previous f rest hdifferent ih =>
      refine List.forall_mem_cons.mpr ⟨.inr List.mem_cons_self, fun g hg => .inr ?_⟩
      obtain hsame | hkept := ih (h.mono fun g hg => by grind) g hg
      · cases hsame
        exact List.mem_cons_self
      · exact List.mem_cons_of_mem f hkept

/-- **Arranging loses no finding** of a list in which findings are determined. -/
theorem mem_arrange_iff {found : List Finding} (h : Determined found) {f : Finding} :
    f ∈ arrange found ↔ f ∈ found := by
  refine ⟨mem_of_mem_arrange, fun hf => ?_⟩
  have hsorted : Determined (sort found) := h.mono fun g hg => (sort_perm found).mem_iff.mp hg
  have hmem : f ∈ sort found := (sort_perm found).mem_iff.mpr hf
  have hkept : some f = none ∨ f ∈ arrange found := mem_dedupFrom hsorted f hmem
  exact hkept.resolve_left nofun

end Finding

end PlaybookLint
