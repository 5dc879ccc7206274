import PlaybookLint.Proofs.Duplicates
import PlaybookLint.Proofs.Spelling

/-!
# Tasks with another module

A task names its module at one place: in a key, in the first word of a text, or under `module`. If
the name of another module stands there, the task runs that module with the same arguments, and
whatever else can be looked up in it stays as it is.

## Main definitions

* `Tree.withText` - a scalar with another text.
* `RenamedDescription`, `Renamed` - tasks that differ in the name of their module, at the place
  where it is named.

## Main statements

* `Tree.lastValue?_of_append`, `Tree.exists_append_of_lastValue?` - where the value of a key stands.
* `Text.wordAndRest_append` - the first word of a text, and what follows it.
* `Renamed.ofTask_eq` - a task with another module does the same with it.
* `Renamed.get?_eq` - nothing else changes.
* `Renamed.exists_of_written` - every module that can be spelled can be renamed.
-/

namespace PlaybookLint

/-! ### Entries in context -/

namespace Tree

/-- The scalar with another text; other nodes stay as they are. -/
def withText (text : String) : Node → Node
  | .scalar line note _ => .scalar line note (.string text)
  | t => t

theorem string?_withText {t : Node} {old : String} (h : t.string? = some old) (new : String) :
    (t.withText new).string? = some new := by
  cases t with
  | scalar => rfl
  | sequence | mapping => exact nomatch h

theorem lastValue?_append (before after : List (Tree α × Tree α)) (key : String) :
    lastValue? (before ++ after) key = (lastValue? after key).or (lastValue? before key) := by
  rw [lastValue?, List.reverse_append, List.find?_append, Option.map_or]
  rfl

/-- The last entry with a key has its value. -/
theorem lastValue?_of_append {before after : List (Tree α × Tree α)} {e : Tree α × Tree α}
    {key : String} (hkey : e.1.string? = some key) (hlast : ∀ e ∈ after, e.1.string? ≠ some key) :
    lastValue? (before ++ e :: after) key = some e.2 := by
  rw [lastValue?_append, lastValue?_cons, lastValue?_eq_none hlast, if_pos hkey]
  rfl

/-- A value that is found stands in the last entry with the key. -/
theorem exists_append_of_lastValue? {entries : List (Tree α × Tree α)} {key : String}
    {value : Tree α} (h : lastValue? entries key = some value) :
    ∃ before own after, entries = before ++ (own, value) :: after ∧ own.string? = some key ∧
      ∀ e ∈ after, e.1.string? ≠ some key := by
  obtain ⟨⟨own, found⟩, hfound, rfl⟩ := Option.map_eq_some_iff.mp h
  obtain ⟨hkey, after, before, hsplit, hlast⟩ := List.find?_eq_some_iff_append.mp hfound
  refine ⟨before.reverse, own, after.reverse, ?_, by simpa using hkey, fun e he => ?_⟩
  · rw [← entries.reverse_reverse, hsplit]
    simp
  · simpa using hlast e (List.mem_reverse.mp he)

/-- An entry may be replaced by another one if neither has the key that is looked for. -/
theorem lastValue?_replace {before after : List (Tree α × Tree α)} {e e' : Tree α × Tree α}
    {key : String} (h : e.1.string? ≠ some key) (h' : e'.1.string? ≠ some key) :
    lastValue? (before ++ e' :: after) key = lastValue? (before ++ e :: after) key := by
  rw [lastValue?_append, lastValue?_append, lastValue?_cons, lastValue?_cons, if_neg h, if_neg h']

end Tree

/-! ### The first word of a text -/

namespace Text

/-- The beginning of a text is trimmed by cutting blanks off it. -/
theorem exists_append_trimStart (cs : List Char) :
    ∃ gap, cs = gap ++ trimStart cs ∧ ∀ c ∈ gap, isBlank c = true :=
  ⟨cs.takeWhile isBlank, List.takeWhile_append_dropWhile.symm, fun _ => List.mem_takeWhile_imp⟩

/-- What is left of a text when its end is trimmed begins as the text does. -/
theorem head?_trimEnd {cs : List Char} {c : Char} (h : (trimEnd cs).head? = some c) :
    cs.head? = some c := by
  obtain ⟨gap, hgap, -⟩ := exists_trimEnd_append cs
  obtain ⟨rest, hrest⟩ := List.head?_eq_some_iff.mp h
  rw [hgap, hrest]
  rfl

/-- **The first word of a text** is what stands before its first blank, once the blanks around the
text are cut off; and what follows it does not depend on it. -/
theorem wordAndRest_append {gap word rest : List Char} (hgap : ∀ c ∈ gap, isBlank c = true)
    (hne : word ≠ []) (hword : ∀ c ∈ word, isBlank c = false)
    (hrest : ∀ c ∈ rest.head?, isBlank c = true) :
    let text := trim (gap ++ (word ++ rest))
    (splitOnce isBlank text).getD (text, []) = (word, (trimEnd rest).drop 1) := by
  have htrim : trim (gap ++ (word ++ rest)) = word ++ trimEnd rest := by
    have hstart : trimStart (gap ++ (word ++ rest)) = word ++ rest := by
      rw [trimStart, List.dropWhile_append_of_pos hgap]
      refine dropWhile_isBlank_eq_self fun c hc => ?_
      rw [List.head?_append_of_ne_nil _ hne] at hc
      exact hword c (List.mem_of_mem_head? hc)
    rw [trim, hstart, trimEnd_append fun c hc => hword c (List.mem_of_getLast? hc)]
  dsimp only
  rw [htrim]
  cases hend : trimEnd rest with
  | nil =>
      rw [List.append_nil, splitOnce_eq_none hword]
      rfl
  | cons c cs =>
      have hblank : isBlank c = true := hrest c (head?_trimEnd (by rw [hend]; rfl))
      rw [splitOnce_append hword hblank]
      rfl

theorem eq_append_of_splitOnce {p : Char → Bool} {cs before after : List Char}
    (h : splitOnce p cs = some (before, after)) :
    ∃ c, cs = before ++ c :: after ∧ p c = true := by
  fun_induction splitOnce p cs generalizing before with
  | case1 => exact nomatch h
  | case2 c cs hc =>
      cases h
      exact ⟨c, rfl, hc⟩
  | case3 c cs hc ih =>
      obtain ⟨⟨first, last⟩, hcut, heq⟩ := Option.map_eq_some_iff.mp h
      cases heq
      obtain ⟨sep, rfl, hsep⟩ := ih hcut
      exact ⟨sep, rfl, hsep⟩

/-- The first word of a text stands in it with blanks before it, and with nothing or a blank after
it. -/
theorem exists_append_of_wordAndRest {cs word rest : List Char}
    (h : (splitOnce isBlank (trim cs)).getD (trim cs, []) = (word, rest)) :
    ∃ gap later, cs = gap ++ (word ++ later) ∧ (∀ c ∈ gap, isBlank c = true) ∧
      ∀ c ∈ later.head?, isBlank c = true := by
  obtain ⟨gap, hcs, hgap⟩ := exists_append_trimStart cs
  obtain ⟨tail, htail, hblank⟩ := exists_trimEnd_append (trimStart cs)
  have htrim : cs = gap ++ (trim cs ++ tail) := by rw [trim, ← htail, ← hcs]
  cases hcut : splitOnce isBlank (trim cs) with
  | none =>
      rw [hcut] at h
      cases h
      exact ⟨gap, tail, htrim, hgap, fun c hc => hblank c (List.mem_of_mem_head? hc)⟩
  | some parts =>
      rw [hcut] at h
      cases h
      obtain ⟨c, htext, hc⟩ := eq_append_of_splitOnce hcut
      refine ⟨gap, c :: rest ++ tail, ?_, hgap, fun d hd => ?_⟩
      · rw [htext, List.append_assoc] at htrim
        exact htrim
      · cases hd
        exact hc

end Text

/-! ### Renamed tasks -/

/-- Descriptions of actions that differ in the name of the module. -/
inductive RenamedDescription (old new : String) : Node → Node → Prop
  /-- The name is the first word of a text. -/
  | text {value : Node} {own : String} {gap rest : List Char} (value_eq : value.string? = some own)
      (own_eq : own.toList = gap ++ (old.toList ++ rest))
      (blank : ∀ c ∈ gap, Text.isBlank c = true)
      (apart : ∀ c ∈ rest.head?, Text.isBlank c = true) :
      RenamedDescription old new value
        (value.withText (String.ofList (gap ++ (new.toList ++ rest))))
  /-- The name stands under the last `module` of a mapping. -/
  | mapping {line : Nat} {note : Option (List String)} {before after : List (Node × Node)}
      {key value : Node} (key_eq : key.string? = some "module")
      (last : ∀ e ∈ after, e.1.string? ≠ some "module") (value_eq : value.string? = some old) :
      RenamedDescription old new (.mapping line note (before ++ (key, value) :: after))
        (.mapping line note (before ++ (key, value.withText new) :: after))

/-- Tasks that differ in the name of their module, at the place where it is named. -/
inductive Renamed (old new : String) : Node → Node → Prop
  /-- The name is the first key that names a module. -/
  | key {line : Nat} {note : Option (List String)} {before after : List (Node × Node)}
      {key value : Node} (key_eq : key.string? = some old)
      (first : ∀ e ∈ before, Action.namesModule e = false)
      (source : Action.moduleSource? (.mapping line note (before ++ (key, value) :: after)) =
        some (key, value)) :
      Renamed old new (.mapping line note (before ++ (key, value) :: after))
        (.mapping line note (before ++ (key.withText new, value) :: after))
  /-- The name stands under the last `action`, or without one under the last `local_action`. -/
  | described {line : Nat} {note : Option (List String)} {before after : List (Node × Node)}
      {key value value' : Node} {place : String} (key_eq : key.string? = some place)
      (place_eq : place = "action" ∨ place = "local_action" ∧
        Tree.get? (.mapping line note (before ++ (key, value) :: after)) "action" = none)
      (last : ∀ e ∈ after, e.1.string? ≠ some place)
      (renamed : RenamedDescription old new value value') :
      Renamed old new (.mapping line note (before ++ (key, value) :: after))
        (.mapping line note (before ++ (key, value') :: after))

namespace Action

variable {task : Node}

theorem moduleSource?_eq_some_iff {e : Node × Node} :
    moduleSource? task = some e ↔ task.isContainer = false ∧ task.get? "action" = none ∧
      task.get? "local_action" = none ∧ task.entries.find? namesModule = some e := by
  rw [moduleSource?]
  cases task.isContainer <;> cases task.get? "action" <;> cases task.get? "local_action" <;> simp

theorem namesModule_of_string? {key : Node} {name : String} (hkey : key.string? = some name)
    (hkeyword : isTaskKeyword name = false) (value : Node) : namesModule (key, value) = true := by
  rw [namesModule, moduleOf?, hkey]
  simp [Option.filter, hkeyword]

/-- A task that names its module in a key takes the arguments from its value. -/
theorem ofTask_of_moduleSource? {e : Node × Node} {name : String} (h : moduleSource? task = some e)
    (hkey : e.1.string? = some name) :
    ofTask task = ofModule name (argsOfValue e.2 ++ extraArgs task) := by
  obtain ⟨own, last, hown, -, htask, -⟩ := ofTask_settled_of_some h
  cases hkey.symm.trans hown
  exact htask

/-- A task with a description does what that describes. -/
theorem ofTask_of_description {value : Node} {name : String} {args : List (String × Node)}
    (hcontainer : task.isContainer = false)
    (hvalue : (task.get? "action").orElse (fun _ => task.get? "local_action") = some value)
    (hdescription : ofDescription task.line value = ofModule name args) :
    ofTask task = ofModule name (args ++ extraArgs task) := by
  rw [ofTask, hcontainer, if_neg Bool.false_ne_true, ofPlainTask, hvalue]
  dsimp only
  rw [hdescription]
  rfl

/-- A text describes the module that its first word names. -/
theorem ofDescription_text {value : Node} {own name : String} {gap rest : List Char}
    (hvalue : value.string? = some own) (hown : own.toList = gap ++ (name.toList ++ rest))
    (hne : name ≠ "") (hname : ∀ c ∈ name.toList, Text.isBlank c = false)
    (hgap : ∀ c ∈ gap, Text.isBlank c = true) (hrest : ∀ c ∈ rest.head?, Text.isBlank c = true)
    (line : Nat) :
    ofDescription line value = ofModule name (parseArgs line ((Text.trimEnd rest).drop 1)) := by
  have hword : name.toList ≠ [] := fun h => hne (String.toList_eq_nil_iff.mp h)
  have hcut := Text.wordAndRest_append hgap hword hname hrest
  rw [← hown] at hcut
  rw [ofDescription, hvalue]
  dsimp only at hcut ⊢
  rw [hcut]
  exact congrArg (ofModule · _) String.ofList_toList

/-- The arguments of a mapping without its modules are those of the other entries. -/
theorem filter_argsOfValue (line : Nat) (note : Option (List String))
    (entries : List (Node × Node)) :
    (argsOfValue (.mapping line note entries)).filter (fun arg => arg.1 ≠ "module") =
      argsOfValue (.mapping line note
        (entries.filter fun e => e.1.string? ≠ some "module")) := by
  show (entries.filterMap _).filter _ = (entries.filter _).filterMap _
  rw [List.filter_filterMap, List.filterMap_filter]
  refine List.filterMap_congr fun ⟨key, value⟩ _ => ?_
  cases hkey : key.string? with
  | none => simp [hkey]
  | some name => by_cases hname : name = "module" <;> simp [hkey, hname]

/-- A mapping describes the module that stands under its last `module`. -/
theorem ofDescription_mapping {entries : List (Node × Node)} {value : Node} {name : String}
    (hmodule : Tree.lastValue? entries "module" = some value) (hname : value.string? = some name)
    (line start : Nat) (note : Option (List String)) :
    ofDescription line (.mapping start note entries) = ofModule name
      (argsOfValue (.mapping start note
        (entries.filter fun e => e.1.string? ≠ some "module"))) := by
  have hget : Tree.get? (.mapping start note entries) "module" = some value := by
    rw [Tree.get?_eq_lastValue?]
    exact hmodule
  rw [← filter_argsOfValue, ofDescription]
  show ofModule (((Tree.get? _ "module").bind Tree.string?).getD "") _ = _
  rw [hget, Option.bind_some, hname]
  rfl

end Action

section Renamed

variable {old new : String} {node renamed : Node}

/-- A description with another module gives it the same arguments. -/
theorem RenamedDescription.ofDescription_eq (hold : SpellableModule old)
    (hnew : SpellableModule new) (h : RenamedDescription old new node renamed) (line : Nat) :
    ∃ args, Action.ofDescription line node = .ofModule old args ∧
      Action.ofDescription line renamed = .ofModule new args := by
  cases h with
  | text hvalue hown hgap hrest =>
      exact ⟨_, Action.ofDescription_text hvalue hown hold.ne_empty hold.noBlank hgap hrest line,
        Action.ofDescription_text (Tree.string?_withText hvalue _) String.toList_ofList
          hnew.ne_empty hnew.noBlank hgap hrest line⟩
  | @mapping start note before after key value hkey hlast hvalue =>
      have hothers : ∀ own : Node, (before ++ (key, own) :: after).filter
          (fun e => e.1.string? ≠ some "module") =
          (before ++ after).filter fun e => e.1.string? ≠ some "module" := by
        intro own
        rw [List.filter_append, List.filter_append, List.filter_cons, if_neg (by simp [hkey])]
      refine ⟨_, Action.ofDescription_mapping (Tree.lastValue?_of_append hkey hlast) hvalue line
        start note, ?_⟩
      rw [Action.ofDescription_mapping (Tree.lastValue?_of_append hkey hlast)
        (Tree.string?_withText hvalue new) line start note, hothers, hothers]

namespace Renamed

theorem line_eq (h : Renamed old new node renamed) : renamed.line = node.line := by
  cases h <;> rfl

theorem note_eq (h : Renamed old new node renamed) : renamed.note = node.note := by
  cases h <;> rfl

theorem isMapping (h : Renamed old new node renamed) :
    node.isMapping = true ∧ renamed.isMapping = true := by
  cases h <;> exact ⟨rfl, rfl⟩

/-- A module that is a key is none of the keywords. -/
theorem get?_withText {line : Nat} {note : Option (List String)} {before after : List (Node × Node)}
    {own value : Node} (hold : SpellableModule old) (hnew : SpellableModule new)
    (hown : own.string? = some old) {key : String} (hkey : isTaskKeyword key = true) :
    Tree.get? (.mapping line note (before ++ (own.withText new, value) :: after)) key =
      Tree.get? (.mapping line note (before ++ (own, value) :: after)) key := by
  rw [Tree.get?_eq_lastValue?, Tree.get?_eq_lastValue?]
  refine Tree.lastValue?_replace ?_ ?_
  · rw [hown]
    exact fun hsame => ne_of_isTaskKeyword hold.noKeyword hkey (Option.some.inj hsame)
  · rw [Tree.string?_withText hown]
    exact fun hsame => ne_of_isTaskKeyword hnew.noKeyword hkey (Option.some.inj hsame)

/-- **Nothing else changes**: a keyword has the same value, unless it describes the action. -/
theorem get?_eq (hold : SpellableModule old) (hnew : SpellableModule new)
    (h : Renamed old new node renamed) {key : String} (hkey : isTaskKeyword key = true)
    (hplace : key ∉ ["action", "local_action"]) : renamed.get? key = node.get? key := by
  cases h with
  | key hown => exact get?_withText hold hnew hown hkey
  | @described line note before after own value value' place hown hor =>
      have hne : place ≠ key := by
        rintro rfl
        rcases hor with rfl | ⟨rfl, -⟩ <;> exact hplace (by decide)
      rw [Tree.get?_eq_lastValue?, Tree.get?_eq_lastValue?]
      exact Tree.lastValue?_replace (by simpa [hown] using hne) (by simpa [hown] using hne)

theorem isContainer_eq (hold : SpellableModule old) (hnew : SpellableModule new)
    (h : Renamed old new node renamed) : renamed.isContainer = node.isContainer := by
  have hkeys : ∀ key ∈ nestedTaskKeys,
      isTaskKeyword key = true ∧ key ∉ ["action", "local_action"] := by decide
  rw [Bool.eq_iff_iff, Tree.isContainer, Tree.isContainer, List.any_eq_true, List.any_eq_true]
  refine exists_congr fun key => and_congr_right fun hkey => ?_
  rw [h.get?_eq hold hnew (hkeys key hkey).1 (hkeys key hkey).2]

/-- What stands at the place of a description is the description. -/
theorem description_of_append {line : Nat} {note : Option (List String)}
    {before after : List (Node × Node)} {own value : Node} {place : String}
    (hown : own.string? = some place)
    (hplace : place = "action" ∨ place = "local_action" ∧
      Tree.get? (.mapping line note (before ++ (own, value) :: after)) "action" = none)
    (hlast : ∀ e ∈ after, e.1.string? ≠ some place) (other : Node) :
    let task : Node := .mapping line note (before ++ (own, other) :: after)
    (task.get? "action").orElse (fun _ => task.get? "local_action") = some other := by
  intro task
  have hfound : task.get? place = some other := by
    rw [Tree.get?_eq_lastValue?]
    exact Tree.lastValue?_of_append hown hlast
  rcases hplace with rfl | ⟨rfl, hnone⟩
  · rw [hfound]
    rfl
  · have haction : task.get? "action" = none := by
      rw [Tree.get?_eq_lastValue?] at hnone ⊢
      exact (Tree.lastValue?_replace (by simp [hown]) (by simp [hown])).trans hnone
    rw [haction, hfound]
    rfl

/-- **A task with another module** runs it with the same arguments. -/
theorem ofTask_eq (hold : SpellableModule old) (hnew : SpellableModule new)
    (h : Renamed old new node renamed) (hcontainer : node.isContainer = false) :
    ∃ args, Action.ofTask node = .ofModule old args ∧
      Action.ofTask renamed = .ofModule new args := by
  have hextra : Action.extraArgs renamed = Action.extraArgs node := by
    rw [Action.extraArgs, Action.extraArgs, h.get?_eq hold hnew (by decide) (by decide)]
  have hrenamed := (h.isContainer_eq hold hnew).trans hcontainer
  cases h with
  | @key line note before after own value hown hfirst hsource =>
      obtain ⟨-, haction, hlocal, -⟩ := Action.moduleSource?_eq_some_iff.mp hsource
      have hnew' : (own.withText new).string? = some new := Tree.string?_withText hown new
      have hnames := Action.namesModule_of_string? hnew' hnew.noKeyword value
      have hfind : (before ++ (own.withText new, value) :: after).find? Action.namesModule =
          some (own.withText new, value) :=
        List.find?_eq_some_iff_append.mpr ⟨hnames, before, after, rfl, by simpa using hfirst⟩
      have hsource' := Action.moduleSource?_eq_some_iff.mpr ⟨hrenamed,
        (get?_withText hold hnew hown (by decide)).trans haction,
        (get?_withText hold hnew hown (by decide)).trans hlocal, hfind⟩
      refine ⟨_, Action.ofTask_of_moduleSource? hsource hown, ?_⟩
      rw [Action.ofTask_of_moduleSource? hsource' hnew', hextra]
  | @described line note before after own value value' place hown hor hlast hdescription =>
      obtain ⟨args, hvalue, hvalue'⟩ := hdescription.ofDescription_eq hold hnew line
      refine ⟨_, Action.ofTask_of_description hcontainer
        (description_of_append hown hor hlast value) hvalue, ?_⟩
      rw [Action.ofTask_of_description hrenamed (description_of_append hown hor hlast value')
        hvalue', hextra]

end Renamed

/-! ### What can be renamed -/

/-- The module that a description names can be renamed. -/
theorem exists_renamedDescription (hold : SpellableModule old) {line : Nat}
    (h : (Action.ofDescription line node).written = old) (new : String) :
    ∃ renamed, RenamedDescription old new node renamed := by
  rw [Action.ofDescription] at h
  split at h
  next own hown =>
    have hword : ((Text.splitOnce Text.isBlank (Text.trim own.toList)).getD
        (Text.trim own.toList, [])).1 = old.toList := by
      rw [← h]
      exact String.toList_ofList.symm
    obtain ⟨gap, rest, hsplit, hgap, hrest⟩ :=
      Text.exists_append_of_wordAndRest (Prod.ext hword rfl)
    exact ⟨_, .text hown hsplit hgap hrest⟩
  next =>
    have hname : ((node.get? "module").bind Tree.string?).getD "" = old := h
    cases hmodule : (node.get? "module").bind Tree.string? with
    | none =>
        rw [hmodule] at hname
        exact absurd hname.symm hold.ne_empty
    | some name =>
        obtain ⟨value, hget, hvalue⟩ := Option.bind_eq_some_iff.mp hmodule
        obtain rfl : name = old := by rwa [hmodule] at hname
        cases node with
        | mapping line note entries =>
            rw [Tree.get?_eq_lastValue?] at hget
            obtain ⟨before, key, after, hentries, hkey, hlast⟩ :=
              Tree.exists_append_of_lastValue? hget
            obtain rfl : entries = before ++ (key, value) :: after := hentries
            exact ⟨_, .mapping hkey hlast hvalue⟩
        | scalar | sequence => cases hget

namespace Renamed

variable {line : Nat} {note : Option (List String)} {entries : List (Node × Node)}

theorem exists_described (hold : SpellableModule old) {place : String} {value : Node}
    (hget : Tree.get? (.mapping line note entries) place = some value)
    (hwritten : (Action.ofDescription line value).written = old)
    (hplace : place = "action" ∨ place = "local_action" ∧
      Tree.get? (.mapping line note entries) "action" = none) (new : String) :
    ∃ renamed, Renamed old new (.mapping line note entries) renamed := by
  rw [Tree.get?_eq_lastValue?] at hget
  obtain ⟨before, key, after, hentries, hkey, hlast⟩ := Tree.exists_append_of_lastValue? hget
  obtain rfl : entries = before ++ (key, value) :: after := hentries
  obtain ⟨renamed, hrenamed⟩ := exists_renamedDescription hold hwritten new
  exact ⟨_, .described hkey hplace hlast hrenamed⟩

theorem exists_key (hold : SpellableModule old)
    (hcontainer : Tree.isContainer (.mapping line note entries) = false)
    (haction : Tree.get? (.mapping line note entries) "action" = none)
    (hlocal : Tree.get? (.mapping line note entries) "local_action" = none)
    (hwritten : ((entries.findSome? Action.ofKeyValue?).getD (.ofModule "" [])).written = old)
    (new : String) : ∃ renamed, Renamed old new (.mapping line note entries) renamed := by
  rw [Action.findSome?_ofKeyValue?] at hwritten
  cases hfind : entries.find? Action.namesModule with
  | none =>
      rw [hfind] at hwritten
      exact absurd hwritten.symm hold.ne_empty
  | some e =>
      obtain ⟨key, value⟩ := e
      obtain ⟨hnames, before, after, hentries, hfirst⟩ := List.find?_eq_some_iff_append.mp hfind
      obtain ⟨name, hname⟩ := Option.isSome_iff_exists.mp hnames
      have hkey : key.string? = some name := (Option.filter_eq_some_iff.mp hname).1
      obtain rfl : name = old := by
        rw [hfind, Option.bind_some, Action.ofKeyValue?_eq, hname] at hwritten
        exact hwritten
      have hsource : Action.moduleSource? (.mapping line note entries) = some (key, value) :=
        Action.moduleSource?_eq_some_iff.mpr ⟨hcontainer, haction, hlocal, hfind⟩
      subst hentries
      exact ⟨_, .key hkey (by simpa using hfirst) hsource⟩

/-- **Every module can be renamed** at the place where the task names it. -/
theorem exists_of_written (hold : SpellableModule old) (hmapping : node.isMapping = true)
    (hcontainer : node.isContainer = false) (h : (Action.ofTask node).written = old)
    (new : String) : ∃ renamed, Renamed old new node renamed := by
  have hplain : (Action.ofPlainTask node).written = old := by
    rw [← h, Action.ofTask, hcontainer]
    rfl
  cases node with
  | scalar | sequence => cases hmapping
  | mapping line note entries =>
      rw [Action.ofPlainTask] at hplain
      cases haction : Tree.get? (.mapping line note entries) "action" with
      | some value =>
          rw [haction] at hplain
          exact exists_described hold haction hplain (.inl rfl) new
      | none =>
          cases hlocal : Tree.get? (.mapping line note entries) "local_action" with
          | some value =>
              rw [haction, hlocal] at hplain
              exact exists_described hold hlocal hplain (.inr ⟨rfl, haction⟩) new
          | none =>
              rw [haction, hlocal] at hplain
              exact exists_key hold hcontainer haction hlocal hplain new

end Renamed

end Renamed

end PlaybookLint
