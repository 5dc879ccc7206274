import PlaybookLint.Proofs.Home

/-!
# The innermost owner of a line

A line belongs to a child of a node if the child is a collection that starts at or above the line
and reaches down to it. In a tree whose lines are in order, no two siblings can own the same line:
the earlier one ends above the next entry, and the later one starts below that. So the way to the
home of a line, on which the first owner is taken at every node, is the only way from owner to
owner, and it ends where no child owns the line.

## Main definitions

* `Tree.children` - the children of a node, with the lines on which their entries start.
* `Tree.Enters` - a step leads to a child that owns a line.
* `Tree.Descends` - a path leads from owner to owner.
* `Tree.LineOrdered` - the lines of a tree are in order.

## Main statements

* `Tree.Enters.unique` - at most one child owns a line.
* `Tree.prefix_home_iff_descends` - the way to the home of a line is the way from owner to owner.
* `comments_of_innermost_owner` - a comment is placed in the nodes that are reached from owner to
  owner, and held by the last one of them.
-/

namespace PlaybookLint

/-- The place of a child among its siblings. -/
def Step.index : Step → Nat
  | .item i | .entry i => i

namespace Tree

/-! ### The children of a node -/

/-- The children of a node, in order, each with the line on which its entry starts: an item starts
its own entry, and a value stands in the entry that its key starts. -/
def children : Tree α → List (Nat × Tree α)
  | .scalar .. => []
  | .sequence _ _ items => items.map fun item => (item.line, item)
  | .mapping _ _ entries => entries.map fun entry => (entry.1.line, entry.2)

/-- The step to the child at a place. -/
def stepTo : Tree α → Nat → Step
  | .mapping .., i => .entry i
  | _, i => .item i

theorem child?_eq_some_iff {t child : Tree α} {step : Step} :
    t.child? step = some child ↔
      step = t.stepTo step.index ∧ ∃ start, t.children[step.index]? = some (start, child) := by
  cases t with
  | scalar => simp [child?, children]
  | sequence line note items =>
      cases step with
      | item i => simp [child?, children, stepTo, Step.index]
      | entry i => simp [child?, stepTo]
  | mapping line note entries =>
      cases step with
      | item i => simp [child?, stepTo]
      | entry i =>
          simp only [child?, children, stepTo, Step.index, List.getElem?_map,
            Option.map_eq_some_iff, Prod.mk.injEq, true_and]
          constructor
          · rintro ⟨e, he, hvalue⟩
            exact ⟨e.1.line, e, he, rfl, hvalue⟩
          · rintro ⟨start, e, he, -, hvalue⟩
            exact ⟨e, he, hvalue⟩

/-- How far the child at a place reaches, given that the last one reaches to `bound`: to the line
before its next sibling starts. -/
def boundAfter (bound : Option Nat) (children : List (Nat × Tree α)) (i : Nat) : Option Nat :=
  match children[i + 1]? with
  | some next => some (next.1 - 1)
  | none => bound

/-- A step leads to a child that owns a line: to a collection whose lines hold it, given that the
node itself reaches to `bound`. -/
structure Enters (bound : Option Nat) (line : Nat) (t : Tree α) (step : Step) (child : Tree α) :
    Prop where
  child? : t.child? step = some child
  isCollection : child.isCollection = true
  line_le : child.line ≤ line
  le_bound : ∀ last, boundAfter bound t.children step.index = some last → line ≤ last

theorem owns_iff {child : Tree α} {bound : Option Nat} {line : Nat} :
    owns child bound line = true ↔
      child.isCollection = true ∧ child.line ≤ line ∧ ∀ last, bound = some last → line ≤ last := by
  cases bound <;> simp [owns, reaches, and_assoc]

/-! ### The home of a line among children -/

/-- The first child that owns a line, with the home of the line in it; `none` if no child does. -/
def homeAmong (bound : Option Nat) (line : Nat) : List (Nat × Tree α) → Option (Nat × TreePath)
  | [] => none
  | child :: later =>
    let childBound := boundAfter bound (child :: later) 0
    if owns child.2 childBound line then some (0, home childBound line child.2)
    else (homeAmong bound line later).map (Prod.map (· + 1) id)

theorem homeInItems_eq_homeAmong (bound : Option Nat) (line : Nat) (items : List (Tree α)) :
    homeInItems bound line items =
      homeAmong bound line (items.map fun item => (item.line, item)) := by
  induction items with
  | nil => rfl
  | cons item items ih =>
      have hbound : boundBefore bound items =
          boundAfter bound ((item :: items).map fun item => (item.line, item)) 0 := by
        cases items <;> rfl
      rw [homeInItems, ih, hbound]
      rfl

theorem homeInEntries_eq_homeAmong (bound : Option Nat) (line : Nat)
    (entries : List (Tree α × Tree α)) :
    homeInEntries bound line entries =
      homeAmong bound line (entries.map fun entry => (entry.1.line, entry.2)) := by
  induction entries with
  | nil => rfl
  | cons entry entries ih =>
      have hbound : boundBefore bound (entries.map Prod.fst) =
          boundAfter bound ((entry :: entries).map fun entry => (entry.1.line, entry.2)) 0 := by
        cases entries <;> rfl
      rw [homeInEntries, ih, hbound]
      rfl

theorem home_eq_homeAmong (bound : Option Nat) (line : Nat) (t : Tree α) :
    t.home bound line = ((homeAmong bound line t.children).map fun found =>
      t.stepTo found.1 :: found.2).getD [] := by
  cases t with
  | scalar => rfl
  | sequence start note items =>
      rw [home, homeInItems_eq_homeAmong]
      show _ = ((homeAmong bound line (items.map fun item => (item.line, item))).map _).getD []
      cases homeAmong bound line (items.map fun item => (item.line, item)) <;> rfl
  | mapping start note entries =>
      rw [home, homeInEntries_eq_homeAmong]
      show _ = ((homeAmong bound line (entries.map fun e => (e.1.line, e.2))).map _).getD []
      cases homeAmong bound line (entries.map fun e => (e.1.line, e.2)) <;> rfl

/-- Either no child owns a line, or the home of the line is in a child that does. -/
theorem homeAmong_cases (bound : Option Nat) (line : Nat) (children : List (Nat × Tree α)) :
    (homeAmong bound line children = none ∧ ∀ i start child, children[i]? = some (start, child) →
        ¬ owns child (boundAfter bound children i) line = true) ∨
      ∃ i start child, children[i]? = some (start, child) ∧
        owns child (boundAfter bound children i) line = true ∧
        homeAmong bound line children =
          some (i, child.home (boundAfter bound children i) line) := by
  induction children with
  | nil => exact .inl ⟨rfl, nofun⟩
  | cons first later ih =>
      by_cases hfirst : owns first.2 (boundAfter bound (first :: later) 0) line = true
      · refine .inr ⟨0, first.1, first.2, rfl, hfirst, ?_⟩
        rw [homeAmong, if_pos hfirst]
      · rw [homeAmong, if_neg hfirst]
        rcases ih with ⟨hnone, hlater⟩ | ⟨i, start, child, hchild, howns, hhome⟩
        · refine .inl ⟨by rw [hnone]; rfl, fun i start child hchild => ?_⟩
          cases i with
          | zero =>
              cases hchild
              exact hfirst
          | succ i => exact hlater i start child hchild
        · exact .inr ⟨i + 1, start, child, hchild, howns, by rw [hhome]; rfl⟩

/-- **One step of the way home.**  Either no child of a node owns a line, and the line is at home in
the node itself, or its home is in a child that owns it. -/
theorem home_cases (bound : Option Nat) (line : Nat) (t : Tree α) :
    (t.home bound line = [] ∧ ∀ step child, ¬ t.Enters bound line step child) ∨
      ∃ step child, t.Enters bound line step child ∧
        t.home bound line =
          step :: child.home (boundAfter bound t.children step.index) line := by
  rw [home_eq_homeAmong]
  rcases homeAmong_cases bound line t.children with
    ⟨hnone, hchildren⟩ | ⟨i, start, child, hchild, howns, hhome⟩
  · refine .inl ⟨by rw [hnone]; rfl, fun step child h => ?_⟩
    obtain ⟨-, start, hstart⟩ := child?_eq_some_iff.mp h.child?
    exact hchildren _ start child hstart (owns_iff.mpr ⟨h.isCollection, h.line_le, h.le_bound⟩)
  · have hindex : (t.stepTo i).index = i := by cases t <;> rfl
    obtain ⟨hcollection, hline, hbound⟩ := owns_iff.mp howns
    refine .inr ⟨t.stepTo i, child, ⟨?_, hcollection, hline, ?_⟩, ?_⟩
    · exact child?_eq_some_iff.mpr ⟨by rw [hindex], start, by rw [hindex]; exact hchild⟩
    · rwa [hindex]
    · rw [hhome, hindex]
      rfl

/-! ### Trees whose lines are in order -/

/-- The lines of a tree are in order: in every collection of it, no entry starts above the one
before it, and no value that is a collection starts above its entry. -/
inductive LineOrdered : Tree α → Prop
  | intro {t : Tree α} (starts : t.children.Pairwise fun c d => c.1 ≤ d.1)
      (values : ∀ c ∈ t.children, c.2.isCollection = true → c.1 ≤ c.2.line)
      (below : ∀ c ∈ t.children, c.2.LineOrdered) : LineOrdered t

theorem lineOrdered_scalar (line : Nat) (note : α) (value : Scalar) :
    (Tree.scalar line note value).LineOrdered :=
  .intro .nil nofun nofun

section Ordered

variable {t child child' node : Tree α} {bound reach : Option Nat} {line : Nat} {step step' : Step}
  {path : TreePath}

theorem LineOrdered.of_child? (h : t.LineOrdered) (hchild : t.child? step = some child) :
    child.LineOrdered := by
  obtain ⟨-, -, hbelow⟩ := h
  obtain ⟨-, start, hstart⟩ := child?_eq_some_iff.mp hchild
  exact hbelow _ (List.mem_of_getElem? hstart)

theorem LineOrdered.of_at? (h : t.LineOrdered) (hnode : t.at? path = some node) :
    node.LineOrdered := by
  induction path generalizing t with
  | nil =>
      rw [at?_nil, Option.some.injEq] at hnode
      exact hnode ▸ h
  | cons step path ih =>
      rw [at?_cons] at hnode
      obtain ⟨child, hchild, hbelow⟩ := Option.bind_eq_some_iff.mp hnode
      exact ih (h.of_child? hchild) hbelow

/-- An owner ends above the next entry, and so above all later owners. -/
theorem Enters.not_index_lt (h : t.LineOrdered) (hpos : 0 < line)
    (hstep : t.Enters bound line step child) (hstep' : t.Enters bound line step' child') :
    ¬ step.index < step'.index := by
  intro hlt
  obtain ⟨hstarts, hvalues, -⟩ := h
  obtain ⟨-, start', hchild'⟩ := child?_eq_some_iff.mp hstep'.child?
  obtain ⟨hlast, hget'⟩ := List.getElem?_eq_some_iff.mp hchild'
  have hnext : step.index + 1 < t.children.length := by omega
  have hend : line ≤ t.children[step.index + 1].1 - 1 := by
    refine hstep.le_bound _ ?_
    rw [boundAfter, List.getElem?_eq_getElem hnext]
  have horder : t.children[step.index + 1].1 ≤ start' := by
    rcases Nat.eq_or_lt_of_le (Nat.succ_le_of_lt hlt) with heq | hlt'
    · simp only [← heq] at hget'
      exact Nat.le_of_eq (congrArg Prod.fst hget')
    · have hpair := List.pairwise_iff_getElem.mp hstarts _ _ hnext hlast hlt'
      rwa [hget'] at hpair
  have hbegin : start' ≤ child'.line :=
    hvalues _ (List.mem_of_getElem? hchild') hstep'.isCollection
  have hline := hstep'.line_le
  omega

/-- **At most one child owns a line.** -/
theorem Enters.unique (h : t.LineOrdered) (hpos : 0 < line)
    (hstep : t.Enters bound line step child) (hstep' : t.Enters bound line step' child') :
    step = step' ∧ child = child' := by
  have hlt := hstep.not_index_lt h hpos hstep'
  have hgt := hstep'.not_index_lt h hpos hstep
  have hindex : step.index = step'.index := by omega
  have hsame : step = step' := by
    rw [(child?_eq_some_iff.mp hstep.child?).1, (child?_eq_some_iff.mp hstep'.child?).1, hindex]
  subst hsame
  exact ⟨rfl, Option.some.inj (hstep.child?.symm.trans hstep'.child?)⟩

end Ordered

/-! ### From owner to owner -/

/-- A path leads from owner to owner: every step of it enters a child that owns the line. It starts
at a tree that reaches to the first bound, and ends at a node that reaches to the second one. -/
inductive Descends (line : Nat) : Option Nat → Tree α → TreePath → Option Nat → Tree α → Prop
  | here (bound : Option Nat) (t : Tree α) : Descends line bound t [] bound t
  | enter {bound reach : Option Nat} {t child node : Tree α} {step : Step} {path : TreePath}
      (enters : t.Enters bound line step child)
      (descends : Descends line (boundAfter bound t.children step.index) child path reach node) :
      Descends line bound t (step :: path) reach node

section Descent

variable {t node : Tree α} {bound reach : Option Nat} {line : Nat} {path : TreePath}

/-- Every part of the way home leads from owner to owner. -/
theorem exists_descends_of_prefix_home (hnode : t.at? path = some node)
    (h : path <+: t.home bound line) : ∃ reach, Descends line bound t path reach node := by
  induction path generalizing t bound with
  | nil =>
      rw [at?_nil, Option.some.injEq] at hnode
      subst hnode
      exact ⟨bound, .here bound t⟩
  | cons step path ih =>
      rw [at?_cons] at hnode
      obtain ⟨child, hchild, hbelow⟩ := Option.bind_eq_some_iff.mp hnode
      rcases home_cases bound line t with ⟨hnil, -⟩ | ⟨first, owner, henters, hhome⟩
      · rw [hnil] at h
        exact absurd (List.prefix_nil.mp h) (List.cons_ne_nil step path)
      · rw [hhome, List.cons_prefix_cons] at h
        obtain ⟨rfl, hrest⟩ := h
        obtain rfl : owner = child := Option.some.inj (henters.child?.symm.trans hchild)
        obtain ⟨reach, hdescends⟩ := ih hbelow hrest
        exact ⟨reach, .enter henters hdescends⟩

/-- If the lines are in order, going from owner to owner is going home. -/
theorem Descends.home_eq (h : Descends line bound t path reach node) (hordered : t.LineOrdered)
    (hpos : 0 < line) : t.home bound line = path ++ node.home reach line := by
  induction h with
  | here bound t => rfl
  | @enter bound reach t child node step path henters _ ih =>
      rcases home_cases bound line t with ⟨-, hnone⟩ | ⟨first, owner, hfirst, hhome⟩
      · exact absurd henters (hnone step child)
      · -- the child that is entered is the one that is found first
        obtain ⟨rfl, rfl⟩ := henters.unique hordered hpos hfirst
        rw [hhome, ih (hordered.of_child? henters.child?), List.cons_append]

/-- A line is at home in a node exactly if no child of it owns the line. -/
theorem home_eq_nil_iff :
    t.home bound line = [] ↔ ∀ step child, ¬ t.Enters bound line step child := by
  rcases home_cases bound line t with ⟨hnil, hnone⟩ | ⟨step, child, henters, hhome⟩
  · exact iff_of_true hnil hnone
  · rw [hhome]
    exact iff_of_false (List.cons_ne_nil _ _) fun hnone => hnone step child henters

variable (hordered : t.LineOrdered) (hpos : 0 < line) (hnode : t.at? path = some node)
include hordered hpos hnode

/-- **The way to the home of a line is the way from owner to owner.** -/
theorem prefix_home_iff_descends :
    path <+: t.home bound line ↔ ∃ reach, Descends line bound t path reach node := by
  constructor
  · exact exists_descends_of_prefix_home hnode
  · rintro ⟨reach, hdescends⟩
    rw [hdescends.home_eq hordered hpos]
    exact List.prefix_append path _

/-- **A line is at home where the way from owner to owner ends.** -/
theorem home_eq_iff_descends :
    t.home bound line = path ↔ ∃ reach, Descends line bound t path reach node ∧
      ∀ step child, ¬ node.Enters reach line step child := by
  constructor
  · intro hhome
    obtain ⟨reach, hdescends⟩ :=
      exists_descends_of_prefix_home hnode (hhome ▸ List.prefix_rfl : path <+: t.home bound line)
    have hrest := hdescends.home_eq hordered hpos
    rw [hhome, List.self_eq_append_right] at hrest
    exact ⟨reach, hdescends, home_eq_nil_iff.mp hrest⟩
  · rintro ⟨reach, hdescends, hnone⟩
    rw [hdescends.home_eq hordered hpos, home_eq_nil_iff.mpr hnone, List.append_nil]

end Descent

end Tree

/-! ### The comments of the innermost owners -/

/-- How far the root of a document reaches: to the line before the next root, or without a bound. -/
def documentBound (roots : List (Tree α)) (i : Nat) : Option Nat :=
  roots[i + 1]?.map fun next => next.line - 1

/-- **Innermost ownership.**  Place comments, on lines counted from one, in documents without
comments, and let the lines of the documents be in order. Then the parts of the documents that hold
a comment are those to which a path leads from owner to owner, starting at the root of the last
document that starts at or above the comment, or of the first one if there is none. The comment is
held by the one node among them of which no child owns its line. Of the children of a node, at most
one owns a line. -/
theorem comments_of_innermost_owner {roots : List CommentNode} (hbare : ∀ root ∈ roots, root.Bare)
    {cs : List Comment} (hlines : ∀ c ∈ cs, 0 < c.line)
    (hordered : ∀ root ∈ cs.foldl placeInDocuments roots, root.LineOrdered) :
    let documents := cs.foldl placeInDocuments roots
    (∀ c ∈ cs, ∀ i root path node, documents[i]? = some root → root.at? path = some node →
      let bound := documentBound documents i
      (c ∈ node.comments ↔ rootIndex c.line documents = i ∧
        ∃ reach, Tree.Descends c.line bound root path reach node) ∧
      (c ∈ node.note ↔ rootIndex c.line documents = i ∧
        ∃ reach, Tree.Descends c.line bound root path reach node ∧
          ∀ step child, ¬ node.Enters reach c.line step child)) ∧
    ∀ root ∈ documents, ∀ path node, root.at? path = some node → ∀ bound line, 0 < line →
      ∀ step child step' child', node.Enters bound line step child →
        node.Enters bound line step' child' → step = step' ∧ child = child' := by
  intro documents
  refine ⟨fun c hc i root path node hroot hnode => ?_, fun root hroot path node hnode => ?_⟩
  · intro bound
    have hpos := hlines c hc
    have htree := hordered root (List.mem_of_getElem? hroot)
    have hplace : nodeAt? documents (i, path) = some node := by
      rw [nodeAt?, hroot]
      exact hnode
    -- in its document, the comment is at home where it would be if the root stood alone
    have hhome : rootIndex c.line documents = i →
        (homeInDocuments c.line documents).2 = root.home bound c.line := by
      rintro rfl
      rw [homeInDocuments]
      simp only [hroot, Option.map_some, Option.getD_some]
      rfl
    constructor
    · rw [mem_comments_nodeAt?_iff hbare hplace hc]
      refine and_congr_right fun hi => ?_
      rw [hhome hi, Tree.prefix_home_iff_descends htree hpos hnode]
    · rw [(note_nodeAt?_placeAll hbare hplace).1, List.mem_filter, decide_eq_true_eq,
        and_iff_right hc, Prod.ext_iff]
      refine and_congr_right fun hi => ?_
      show (homeInDocuments c.line documents).2 = path ↔ _
      rw [hhome hi, Tree.home_eq_iff_descends htree hpos hnode]
  · intro bound line hpos step child step' child' hstep hstep'
    exact hstep.unique ((hordered root hroot).of_at? hnode) hpos hstep'

/-- The theorem applies to a comment between two tasks: the task above it holds a list, and the task
in that list holds the comment. -/
theorem comments_of_innermost_owner_nested :
    let string (line : Nat) (text : String) : CommentNode := .scalar line [] (.string text)
    let inner : CommentNode := .mapping 3 [] [(string 3 "ping", .scalar 3 [] .null)]
    let task : CommentNode :=
      .mapping 1 [] [(string 1 "name", string 1 "a"), (string 2 "block", .sequence 3 [] [inner])]
    let root : CommentNode := .sequence 1 [] [task, .mapping 5 [] [(string 5 "name", string 5 "b")]]
    let c : Comment := ⟨4, 1, "# noqa"⟩
    let path : TreePath := [.item 0, .entry 1, .item 0]
    ∃ placed node, [c].foldl placeInDocuments [root] = [placed] ∧ placed.LineOrdered ∧
      placed.at? path = some node ∧ c ∈ node.note ∧ c ∈ placed.comments := by
  intro string inner task root c path
  let node := inner.addComment c
  let list : CommentNode := .sequence 3 [] [node]
  let outer : CommentNode :=
    .mapping 1 [] [(string 1 "name", string 1 "a"), (string 2 "block", list)]
  let last : CommentNode := .mapping 5 [] [(string 5 "name", string 5 "b")]
  let placed : CommentNode := .sequence 1 [] [outer, last]
  have hplaced : [c].foldl placeInDocuments [root] = [placed] := rfl
  have hscalar := fun line => Tree.lineOrdered_scalar line ([] : List Comment)
  have hnode : node.LineOrdered := .intro (by decide) (by decide)
    (List.forall_mem_singleton.mpr (hscalar 3 _))
  have hlist : list.LineOrdered := .intro (by decide) (by decide)
    (List.forall_mem_singleton.mpr hnode)
  have houter : outer.LineOrdered := .intro (by decide) (by decide)
    (List.forall_mem_cons.mpr ⟨hscalar 1 _, List.forall_mem_singleton.mpr hlist⟩)
  have hlast : last.LineOrdered := .intro (by decide) (by decide)
    (List.forall_mem_singleton.mpr (hscalar 5 _))
  have hordered : placed.LineOrdered := .intro (by decide) (by decide)
    (List.forall_mem_cons.mpr ⟨houter, List.forall_mem_singleton.mpr hlast⟩)
  have hdescends : Tree.Descends 4 none placed path (some 4) node :=
    .enter ⟨rfl, rfl, by decide, by decide⟩ <| .enter ⟨rfl, rfl, by decide, by decide⟩ <|
      .enter ⟨rfl, rfl, by decide, by decide⟩ (.here _ _)
  have hnone : ∀ step child, ¬ node.Enters (some 4) 4 step child := by
    rintro (i | i) child ⟨hchild, hcollection, -, -⟩
    · exact nomatch hchild
    · match i with
      | 0 =>
          cases hchild
          exact nomatch hcollection
      | i + 1 => exact nomatch hchild
  have hbare : ∀ own ∈ [root], own.Bare := List.forall_mem_singleton.mpr rfl
  have hline : ∀ own ∈ [c], 0 < own.line := List.forall_mem_singleton.mpr (by decide)
  obtain ⟨hcomments, -⟩ := comments_of_innermost_owner hbare hline
    (hplaced ▸ List.forall_mem_singleton.mpr hordered)
  rw [hplaced] at hcomments
  have hholds := hcomments c List.mem_cons_self 0 placed
  have hroot := (hholds [] placed rfl rfl).1.mpr ⟨by decide, none, .here _ _⟩
  have hnote := (hholds path node rfl rfl).2.mpr ⟨by decide, some 4, hdescends, hnone⟩
  exact ⟨placed, node, hplaced, hordered, rfl, hnote, hroot⟩

end PlaybookLint
