import Mathlib.Data.List.Forall2
import PlaybookLint.Proofs.Lookup
import PlaybookLint.Proofs.Words
import PlaybookLint.Task

/-!
# The spellings of an action

A task can name its module and the arguments of the module in several ways: with the module as a
key, over a mapping or over a text of words; with an `action` or a `local_action`; or with the
arguments apart. All of these come to the same action.

## Main definitions

* `SpellableModule`, `SpellableArg` - modules and arguments that can be spelled in all the ways.
* `Spelling` - the entries that spell an action; `SpellsAction` - a task with such entries.
* `Action.Runs` - an action that runs a module with some arguments.
* `Action.Alike` - actions that are the same up to lines.

## Main statements

* `Spelling.spellsAction` - a spelling makes a task.
* `Action.parseArgs_argsText` - the arguments that are spelled as words are read from them.
* `Action.ofTask_eq_ofEntries` - the action of a task depends on few of its entries.
* `Action.ofTask_spec` - a task runs what it spells, however it does so.
-/

namespace PlaybookLint

/-! ### What can be spelled -/

/-- A module whose name can be a key of a task, and the first word of an `action`. -/
structure SpellableModule (name : String) : Prop where
  ne_empty : name ≠ ""
  noBlank : ∀ c ∈ name.toList, Text.isBlank c = false
  noKeyword : isTaskKeyword name = false

/-- An argument whose name can be put before an equals sign, and its value between double quotes. -/
structure SpellableArg (arg : String × String) : Prop where
  ne_empty : arg.1 ≠ ""
  ne_module : arg.1 ≠ "module"
  noEquals : ∀ c ∈ arg.1.toList, c ≠ '='
  noBlank : ∀ c ∈ arg.1.toList, Text.isBlank c = false
  noQuote : ∀ c ∈ arg.1.toList, c ≠ '"' ∧ c ≠ '\''
  plainValue : ∀ c ∈ arg.2.toList, c ≠ '"' ∧ c ≠ '\\'

/-- The word that spells an argument: the name, an equals sign and the value between double
quotes. -/
def argWord (arg : String × String) : List Char :=
  arg.1.toList ++ '=' :: '"' :: (arg.2.toList ++ ['"'])

/-- The text that spells some arguments. -/
def argsText (args : List (String × String)) : List Char :=
  [' '].intercalate (args.map argWord)

/-- The text that spells a module and its arguments. -/
def actionText (name : String) (args : List (String × String)) : List Char :=
  [' '].intercalate (name.toList :: args.map argWord)

/-- The entries of a mapping give some arguments, in order. -/
def GivesArgs (args : List (String × String)) (entries : List (Node × Node)) : Prop :=
  List.Forall₂ (fun arg e => e.1.string? = some arg.1 ∧ ∃ line, e.2 = Node.string line arg.2)
    args entries

/-- None of the arguments is called `module`. -/
theorem GivesArgs.ne_module {args : List (String × String)} {entries : List (Node × Node)}
    (h : GivesArgs args entries)
    (hargs : ∀ arg ∈ args, SpellableArg arg) : ∀ e ∈ entries, e.1.string? ≠ some "module" := by
  induction h with
  | nil => exact List.forall_mem_nil _
  | cons hfirst _ ih =>
      obtain ⟨harg, hlater⟩ := List.forall_mem_cons.mp hargs
      refine List.forall_mem_cons.mpr ⟨?_, ih hlater⟩
      rw [hfirst.1]
      exact fun hname => harg.ne_module (Option.some.inj hname)

/-- The entry is one that the action of a task depends on. -/
def concernsAction (e : Node × Node) : Bool :=
  e.1.string?.any fun key => !isTaskKeyword key || ["action", "local_action", "args"].contains key

/-- Entries that spell an action, in one of the five ways to do so. -/
inductive Spelling (name : String) (args : List (String × String)) : List (Node × Node) → Prop
  /-- The module over a mapping. -/
  | mapping {key : Node} {line : Nat} {note : Option (List String)} {entries : List (Node × Node)}
      (key_eq : key.string? = some name) (gives : GivesArgs args entries) :
      Spelling name args [(key, .mapping line note entries)]
  /-- The module over a text. -/
  | words {key : Node} {line : Nat} {note : Option (List String)} {text : String}
      (key_eq : key.string? = some name) (text_eq : text.toList = argsText args) :
      Spelling name args [(key, .scalar line note (.string text))]
  /-- An `action` over a text with the module in front. -/
  | action {key value : Node} {text : String} (key_eq : key.string? = some "action")
      (value_eq : value.string? = some text) (text_eq : text.toList = actionText name args) :
      Spelling name args [(key, value)]
  /-- A `local_action` over a mapping with the module in front. -/
  | localAction {key first value : Node} {line : Nat} {note : Option (List String)}
      {entries : List (Node × Node)} (key_eq : key.string? = some "local_action")
      (first_eq : first.string? = some "module") (value_eq : value.string? = some name)
      (gives : GivesArgs args entries) :
      Spelling name args [(key, .mapping line note ((first, value) :: entries))]
  /-- The module over nothing, and `args` beside it. -/
  | apart {key value other : Node} {line : Nat} {note : Option (List String)}
      {entries all : List (Node × Node)} (key_eq : key.string? = some name)
      (value_eq : value.isNull = true) (other_eq : other.string? = some "args")
      (gives : GivesArgs args entries)
      (all_eq : all = [(key, value), (other, .mapping line note entries)] ∨
        all = [(other, .mapping line note entries), (key, value)]) : Spelling name args all

/-- A task spells an action: it holds no other tasks, and those of its entries on which its action
depends are a spelling. -/
structure SpellsAction (name : String) (args : List (String × String)) (task : Node) : Prop where
  noContainer : task.isContainer = false
  spelling : Spelling name args (task.entries.filter concernsAction)

/-! ### Tasks that spell an action -/

section Spelling

variable {name : String} {args : List (String × String)}

theorem concernsAction_of_key {key : String} (h : ["action", "local_action", "args"].contains key)
    (e : Node × Node) (hkey : e.1.string? = some key) : concernsAction e = true := by
  simp only [concernsAction, hkey, Option.any_some, h, Bool.or_true]

/-- A keyword names no module. -/
theorem ne_of_isTaskKeyword {name key : String} (hname : isTaskKeyword name = false)
    (hkey : isTaskKeyword key = true) : name ≠ key := by
  rintro rfl
  rw [hname] at hkey
  exact Bool.false_ne_true hkey

/-- The keys of a spelling are the module, or say that there is one. -/
theorem Spelling.key {entries : List (Node × Node)} (h : Spelling name args entries) :
    ∀ e ∈ entries, ∃ key, e.1.string? = some key ∧
      (key = name ∨ key ∈ ["action", "local_action", "args"]) := by
  cases h with
  | mapping hkey | words hkey => exact List.forall_mem_singleton.mpr ⟨_, hkey, .inl rfl⟩
  | action hkey | localAction hkey =>
      exact List.forall_mem_singleton.mpr ⟨_, hkey, .inr (by decide)⟩
  | apart hkey _ hother _ hall =>
      rcases hall with rfl | rfl
      · exact List.forall_mem_cons.mpr
          ⟨⟨_, hkey, .inl rfl⟩, List.forall_mem_singleton.mpr ⟨_, hother, .inr (by decide)⟩⟩
      · exact List.forall_mem_cons.mpr
          ⟨⟨_, hother, .inr (by decide)⟩, List.forall_mem_singleton.mpr ⟨_, hkey, .inl rfl⟩⟩

/-- **A spelling makes a task**, beside any keywords that have nothing to do with the action. -/
theorem Spelling.spellsAction {entries others : List (Node × Node)}
    (h : Spelling name args entries) (hname : isTaskKeyword name = false)
    (hothers : ∀ e ∈ others, concernsAction e = false ∧ ∀ key ∈ nestedTaskKeys,
      e.1.string? ≠ some key) (line : Nat) (note : Option (List String)) :
    SpellsAction name args (.mapping line note (others ++ entries)) := by
  have hnested : ∀ key ∈ nestedTaskKeys, isTaskKeyword key = true ∧
      key ∉ ["action", "local_action", "args"] := by decide
  constructor
  · have hget : ∀ key ∈ nestedTaskKeys,
        Tree.get? (.mapping line note (others ++ entries)) key = none := by
      intro key hkey
      rw [Tree.get?_eq_lastValue?]
      refine Tree.lastValue?_eq_none fun e he => ?_
      rcases List.mem_append.mp he with he | he
      · exact (hothers e he).2 key hkey
      · obtain ⟨own, hown, hcases⟩ := h.key e he
        have hne : own ≠ key := by
          rcases hcases with rfl | hmem
          · exact ne_of_isTaskKeyword hname (hnested key hkey).1
          · exact fun hsame => (hnested key hkey).2 (hsame ▸ hmem)
        rw [hown]
        exact fun hsame => hne (Option.some.inj hsame)
    rw [Tree.isContainer, List.any_eq_false]
    intro key hkey
    simp [hget key hkey]
  · have hfilter : (others ++ entries).filter concernsAction = entries := by
      rw [List.filter_append, List.filter_eq_nil_iff.mpr, List.nil_append, List.filter_eq_self]
      · intro e he
        obtain ⟨own, hown, hcases⟩ := h.key e he
        rcases hcases with rfl | hmem
        · simp [concernsAction, hown, hname]
        · exact concernsAction_of_key (by simpa using hmem) e hown
      · intro e he
        simp [(hothers e he).1]
    show Spelling name args ((others ++ entries).filter concernsAction)
    rw [hfilter]
    exact h

end Spelling

namespace Action

/-- The arguments of an action are the given ones, in order, each a string on some line. -/
def HasArgs (args : List (String × String)) (own : List (String × Node)) : Prop :=
  List.Forall₂ (fun arg a => a.1 = arg.1 ∧ ∃ line, a.2 = Node.string line arg.2) args own

/-- An action runs a module with the given arguments. -/
structure Runs (name : String) (args : List (String × String)) (a : Action) : Prop where
  module_eq : a.module = shortName name
  written_eq : a.written = name
  hasArgs : HasArgs args a.args

/-- Actions are the same, up to the lines of the strings that are their arguments. -/
structure Alike (a b : Action) : Prop where
  module_eq : a.module = b.module
  written_eq : a.written = b.written
  args : List.Forall₂ (fun x y => x.1 = y.1 ∧ ∃ line line' text,
    x.2 = Node.string line text ∧ y.2 = Node.string line' text) a.args b.args

theorem Runs.alike {name : String} {args : List (String × String)} {a b : Action}
    (ha : a.Runs name args) (hb : b.Runs name args) : a.Alike b := by
  refine ⟨ha.module_eq.trans hb.module_eq.symm, ha.written_eq.trans hb.written_eq.symm, ?_⟩
  obtain ⟨-, -, ha⟩ := ha
  obtain ⟨-, -, hb⟩ := hb
  generalize a.args = own at ha
  generalize b.args = other at hb
  induction ha generalizing other with
  | nil =>
      cases hb
      exact .nil
  | cons hfirst _ ih =>
      cases hb with
      | cons hsecond hlater =>
          obtain ⟨hname, line, hline⟩ := hfirst
          obtain ⟨hname', line', hline'⟩ := hsecond
          exact .cons ⟨hname.trans hname'.symm, line, line', _, hline, hline'⟩ (ih _ hlater)

/-! ### Arguments as words -/

section Words

variable {arg : String × String}

theorem argWord_ne_nil : argWord arg ≠ [] := by
  simp [argWord]

/-- The quotes that a word opens are closed in it, and no blank in it stands outside them. -/
theorem unbroken_argWord (h : SpellableArg arg) :
    Quoting.outside.Unbroken (argWord arg) ∧ Quoting.outside.after (argWord arg) = .outside := by
  obtain ⟨hinside, hvalue⟩ := Quoting.after_inside h.plainValue
  have hname := Quoting.after_outside h.noQuote
  have hequals : Quoting.outside.next '=' = .outside := rfl
  have hquote : Quoting.outside.next '"' = .inside '"' := rfl
  constructor
  · simp only [argWord, Quoting.unbroken_append, Quoting.unbroken_cons, hname, hequals, hquote]
    refine ⟨Quoting.unbroken_outside h.noQuote h.noBlank, rfl, rfl, hvalue, ?_⟩
    rw [hinside]
    exact ⟨rfl, trivial⟩
  · simp only [argWord, Quoting.after_append, Quoting.after_cons, hname, hequals, hquote, hinside]
    rfl

theorem unquote_quoted (value : List Char) : unquote ('"' :: (value ++ ['"'])) = value := by
  simp [unquote, unquoteWith?]

/-- The word that spells an argument is read as this argument. -/
theorem wordArg?_argWord (h : SpellableArg arg) (line : Nat) :
    wordArg? line (argWord arg) = some (arg.1, .string line arg.2) := by
  have hcut : Text.splitOnce (· = '=') (argWord arg) =
      some (arg.1.toList, '"' :: (arg.2.toList ++ ['"'])) :=
    Text.splitOnce_append (by simpa using h.noEquals) rfl _
  rw [wordArg?, hcut]
  obtain ⟨name, value⟩ := arg
  cases hname : name.toList with
  | nil => exact absurd (String.toList_eq_nil_iff.mp hname) h.ne_empty
  | cons c cs =>
      obtain ⟨hdouble, hsingle⟩ := h.noQuote c (by simp [hname])
      have hback : String.ofList (c :: cs) = name := by rw [← hname, String.ofList_toList]
      simp [hdouble, hsingle, hback, unquote_quoted]

/-- **Words are read one by one.**  Each word of a text gives an argument, if no blank in it stands
outside quotes and its quotes are closed in it, and nothing is left that would be free text. -/
theorem parseArgs_intercalate {args : List β} {word : β → List Char} {read : β → String × Node}
    {line : Nat}
    (h : ∀ arg ∈ args, word arg ≠ [] ∧ Quoting.outside.Unbroken (word arg) ∧
      Quoting.outside.after (word arg) = .outside ∧ wordArg? line (word arg) = some (read arg)) :
    parseArgs line ([' '].intercalate (args.map word)) = args.map read := by
  have hwords : splitWords ([' '].intercalate (args.map word)) = args.map word := by
    refine splitWords_intercalate (Quoting.joinable_of_forall ?_)
    intro own hown
    obtain ⟨arg, harg, rfl⟩ := List.mem_map.mp hown
    obtain ⟨hne, hunbroken, hclosed, -⟩ := h arg harg
    exact ⟨hne, hunbroken, hclosed⟩
  have hread : ∀ arg ∈ args, wordArg? line (word arg) = some (read arg) :=
    fun arg harg => (h arg harg).2.2.2
  have hfree : (args.map word).filter (fun own => (wordArg? line own).isNone) = [] := by
    rw [List.filter_eq_nil_iff]
    intro own hown
    obtain ⟨arg, harg, rfl⟩ := List.mem_map.mp hown
    simp [hread arg harg]
  have hfound : (args.map word).filterMap (wordArg? line) = args.map read := by
    rw [List.filterMap_map, ← List.filterMap_eq_map]
    exact List.filterMap_congr hread
  simp only [parseArgs, hwords, hfree, hfound, List.isEmpty_nil, if_true, List.append_nil]

/-- **Arguments that are spelled as words are read from them**, in order. -/
theorem parseArgs_argsText {args : List (String × String)} (h : ∀ arg ∈ args, SpellableArg arg)
    (line : Nat) :
    parseArgs line (argsText args) = args.map fun arg => (arg.1, .string line arg.2) := by
  refine parseArgs_intercalate fun arg harg => ?_
  obtain ⟨hunbroken, hclosed⟩ := unbroken_argWord (h arg harg)
  exact ⟨argWord_ne_nil, hunbroken, hclosed, wordArg?_argWord (h arg harg) line⟩

end Words

section Arguments

variable {args : List (String × String)}

theorem hasArgs_parseArgs (h : ∀ arg ∈ args, SpellableArg arg) {line : Nat} {text : List Char}
    (htext : text = argsText args) : HasArgs args (parseArgs line text) := by
  rw [htext, parseArgs_argsText h, HasArgs, List.forall₂_map_right_iff, List.forall₂_same]
  exact fun arg _ => ⟨rfl, line, rfl⟩

/-- What holds of the entries of a mapping one by one, holds of the arguments that they give. -/
theorem forall₂_argsOfValue {R : β → String × Node → Prop} {given : List β}
    {entries : List (Node × Node)}
    (h : List.Forall₂ (fun arg e => ∃ key, e.1.string? = some key ∧ R arg (key, e.2)) given entries)
    (line : Nat) (note : Option (List String)) :
    List.Forall₂ R given (argsOfValue (.mapping line note entries)) := by
  induction h with
  | nil => exact .nil
  | @cons arg e given entries hfirst _ ih =>
      obtain ⟨k, v⟩ := e
      obtain ⟨key, hkey, harg⟩ := hfirst
      have hargs : argsOfValue (.mapping line note ((k, v) :: entries)) =
          (key, v) :: argsOfValue (.mapping line note entries) := by
        simp [argsOfValue, hkey]
      rw [hargs]
      exact .cons harg ih

theorem hasArgs_argsOfValue {entries : List (Node × Node)} (h : GivesArgs args entries) (line : Nat)
    (note : Option (List String)) : HasArgs args (argsOfValue (.mapping line note entries)) :=
  forall₂_argsOfValue (h.imp fun _ _ hfirst => ⟨_, hfirst.1, rfl, hfirst.2⟩) line note

theorem HasArgs.ne_module {own : List (String × Node)} (h : HasArgs args own)
    (hargs : ∀ arg ∈ args, SpellableArg arg) : ∀ a ∈ own, a.1 ≠ "module" := by
  induction h with
  | nil => exact List.forall_mem_nil _
  | cons hfirst _ ih =>
      obtain ⟨harg, hlater⟩ := List.forall_mem_cons.mp hargs
      exact List.forall_mem_cons.mpr ⟨hfirst.1 ▸ harg.ne_module, ih hlater⟩

/-! ### Descriptions -/

variable {name : String}

theorem actionText_nil : actionText name [] = name.toList := by
  rw [actionText, List.map_nil, intercalate_cons, List.flatMap_nil, List.append_nil]

theorem actionText_cons (arg : String × String) (args : List (String × String)) :
    actionText name (arg :: args) = name.toList ++ ' ' :: argsText (arg :: args) := by
  rw [actionText, intercalate_cons, argsText, List.map_cons, intercalate_cons, List.flatMap_cons,
    List.cons_append]

/-- The text of an action begins with the module and ends with the module or with a quote. -/
theorem trim_actionText (hname : SpellableModule name) :
    Text.trim (actionText name args) = actionText name args := by
  have hne : name.toList ≠ [] := fun h => hname.ne_empty (String.toList_eq_nil_iff.mp h)
  apply Text.trim_eq_self
  · intro c hc
    rw [actionText, intercalate_cons, List.head?_append_of_ne_nil _ hne] at hc
    exact hname.noBlank c (List.mem_of_mem_head? hc)
  · intro c hc
    -- without arguments the module is the last word, and otherwise the last word ends with a quote
    rcases List.eq_nil_or_concat args with rfl | ⟨init, arg, rfl⟩
    · rw [actionText_nil] at hc
      exact hname.noBlank c (List.mem_of_getLast? hc)
    · have hlast : actionText name (init.concat arg) =
          (name.toList ++ (init.map argWord).flatMap (' ' :: ·) ++
            ' ' :: (arg.1.toList ++ '=' :: '"' :: arg.2.toList)) ++ ['"'] := by
        rw [actionText, intercalate_cons]
        simp [argWord]
      rw [hlast, List.getLast?_concat] at hc
      cases hc
      rfl

theorem runs_ofDescription_text (hname : SpellableModule name)
    (hargs : ∀ arg ∈ args, SpellableArg arg) {value : Node} {text : String}
    (hvalue : value.string? = some text) (htext : text.toList = actionText name args)
    (line : Nat) : (ofDescription line value).Runs name args := by
  have hcut : (Text.splitOnce Text.isBlank (actionText name args)).getD
      (actionText name args, []) = (name.toList, argsText args) := by
    cases args with
    | nil =>
        rw [actionText_nil, Text.splitOnce_eq_none hname.noBlank]
        rfl
    | cons arg args =>
        rw [actionText_cons, Text.splitOnce_append hname.noBlank (by decide)]
        rfl
  rw [ofDescription, hvalue]
  dsimp only
  rw [htext, trim_actionText hname, hcut]
  have hback : String.ofList name.toList = name := String.ofList_toList
  rw [hback]
  exact ⟨rfl, rfl, hasArgs_parseArgs hargs rfl⟩

theorem runs_ofDescription_mapping (hargs : ∀ arg ∈ args, SpellableArg arg) {first value : Node}
    {entries : List (Node × Node)} (hfirst : first.string? = some "module")
    (hvalue : value.string? = some name) (hgives : GivesArgs args entries) (line start : Nat)
    (note : Option (List String)) :
    (ofDescription line (.mapping start note ((first, value) :: entries))).Runs name args := by
  have hown := hasArgs_argsOfValue hgives start note
  have hmodule : Tree.get? (.mapping start note ((first, value) :: entries)) "module" =
      some value := by
    have hnone : Tree.lastValue? entries "module" = none :=
      Tree.lastValue?_eq_none (hgives.ne_module hargs)
    rw [Tree.get?_eq_lastValue?]
    show Tree.lastValue? ((first, value) :: entries) "module" = some value
    rw [Tree.lastValue?_cons, hnone, hfirst]
    rfl
  have hall : (argsOfValue (.mapping start note ((first, value) :: entries))).filter
      (fun arg => arg.1 ≠ "module") = argsOfValue (.mapping start note entries) := by
    have hcons : argsOfValue (.mapping start note ((first, value) :: entries)) =
        ("module", value) :: argsOfValue (.mapping start note entries) := by
      simp [argsOfValue, hfirst]
    have hkept : (argsOfValue (.mapping start note entries)).filter
        (fun arg => arg.1 ≠ "module") = argsOfValue (.mapping start note entries) := by
      rw [List.filter_eq_self]
      intro a ha
      simpa using hown.ne_module hargs a ha
    rw [hcons, List.filter_cons, hkept]
    rfl
  have hdescription : ofDescription line (.mapping start note ((first, value) :: entries)) =
      ofModule name (argsOfValue (.mapping start note entries)) := by
    rw [ofDescription]
    show ofModule (((Tree.get? _ "module").bind Tree.string?).getD "") _ = _
    rw [hmodule, hall, Option.bind_some, hvalue]
    rfl
  rw [hdescription]
  exact ⟨rfl, rfl, hown⟩

end Arguments

/-! ### Tasks -/

theorem findSome?_filter_of {f : α → Option β} {p : α → Bool} (h : ∀ a, p a = false → f a = none)
    {l : List α} : (l.filter p).findSome? f = l.findSome? f := by
  induction l with
  | nil => rfl
  | cons a l ih =>
      cases ha : p a with
      | false => simp [ha, h a ha, ih]
      | true => rw [List.filter_cons, if_pos ha, List.findSome?_cons, List.findSome?_cons, ih]

/-- The action that some entries of a task on a line describe. -/
def ofEntries (line : Nat) (entries : List (Node × Node)) : Action :=
  let described :=
    (Tree.lastValue? entries "action").orElse fun _ => Tree.lastValue? entries "local_action"
  let own :=
    match described with
    | some value => ofDescription line value
    | none => (entries.findSome? ofKeyValue?).getD (ofModule "" [])
  { own with args := own.args ++ ((Tree.lastValue? entries "args").map argsOfValue).getD [] }

theorem ofKeyValue?_of_not_concernsAction {e : Node × Node} (h : concernsAction e = false) :
    ofKeyValue? e = none := by
  unfold concernsAction at h
  unfold ofKeyValue?
  cases hkey : e.1.string? with
  | none => rfl
  | some key =>
      rw [hkey, Option.any_some, Bool.or_eq_false_iff, Bool.not_eq_false'] at h
      exact if_pos h.1

/-- **The action of a task depends on few of its entries**: on those with a module, with an action
or with `args`. -/
theorem ofTask_eq_ofEntries {task : Node} (h : task.isContainer = false) :
    ofTask task = ofEntries task.line (task.entries.filter concernsAction) := by
  have hget : ∀ {key : String}, ["action", "local_action", "args"].contains key = true →
      task.get? key = Tree.lastValue? (task.entries.filter concernsAction) key := by
    intro key hkey
    exact Tree.get?_eq_lastValue?_filter (concernsAction_of_key hkey)
  have hmodule : task.entries.findSome? ofKeyValue? =
      (task.entries.filter concernsAction).findSome? ofKeyValue? :=
    (findSome?_filter_of fun e he => ofKeyValue?_of_not_concernsAction he).symm
  rw [ofTask, h, if_neg Bool.false_ne_true, ofPlainTask, hget (by decide), hget (by decide),
    hget (by decide), hmodule]
  rfl

section Entries

variable {name : String} {key value : Node}

/-- The only relevant entry has a module for its key. -/
theorem ofEntries_module (hname : isTaskKeyword name = false) (hkey : key.string? = some name)
    (line : Nat) : ofEntries line [(key, value)] = ofModule name (argsOfValue value) := by
  have haction : name ≠ "action" := ne_of_isTaskKeyword hname (by decide)
  have hlocal : name ≠ "local_action" := ne_of_isTaskKeyword hname (by decide)
  have hextra : name ≠ "args" := ne_of_isTaskKeyword hname (by decide)
  simp [ofEntries, Tree.lastValue?, ofKeyValue?, hkey, hname, haction, hlocal, hextra]

/-- The only relevant entry describes the action. -/
theorem ofEntries_action (hkey : key.string? = some "action" ∨ key.string? = some "local_action")
    (line : Nat) : ofEntries line [(key, value)] = ofDescription line value := by
  rcases hkey with hkey | hkey <;> simp [ofEntries, Tree.lastValue?, hkey]

/-- The relevant entries are a module and `args`, in some order. -/
theorem ofEntries_apart {other extra : Node} {entries : List (Node × Node)}
    (hname : isTaskKeyword name = false) (hkey : key.string? = some name)
    (hother : other.string? = some "args")
    (hentries : entries = [(key, value), (other, extra)] ∨ entries = [(other, extra), (key, value)])
    (line : Nat) :
    ofEntries line entries = ofModule name (argsOfValue value ++ argsOfValue extra) := by
  have haction : name ≠ "action" := ne_of_isTaskKeyword hname (by decide)
  have hlocal : name ≠ "local_action" := ne_of_isTaskKeyword hname (by decide)
  have hextra : name ≠ "args" := ne_of_isTaskKeyword hname (by decide)
  have hkeyword : isTaskKeyword "args" = true := by decide
  -- `args` is a keyword, so that it is passed over on the way to the module
  rcases hentries with rfl | rfl <;>
    simp [ofEntries, Tree.lastValue?, ofKeyValue?, ofModule, hkey, hother, hname, haction, hlocal,
      hextra, hkeyword]

end Entries

theorem argsOfValue_of_isNull {value : Node} (h : value.isNull = true) :
    argsOfValue value = [] := by
  cases value with
  | scalar line note own =>
      have hown : own = .null := by simpa [Tree.isNull, Tree.scalar?] using h
      rw [hown]
      rfl
  | sequence | mapping => exact absurd h (by simp [Tree.isNull, Tree.scalar?])

variable {name : String} {args : List (String × String)}

/-- **A task runs what it spells.** -/
theorem runs_ofTask (hname : SpellableModule name) (hargs : ∀ arg ∈ args, SpellableArg arg)
    {task : Node} (h : SpellsAction name args task) : (ofTask task).Runs name args := by
  obtain ⟨hcontainer, hspelling⟩ := h
  rw [ofTask_eq_ofEntries hcontainer]
  generalize task.entries.filter concernsAction = entries at hspelling
  cases hspelling with
  | @mapping _ line note _ hkey hgives =>
      rw [ofEntries_module hname.noKeyword hkey]
      exact ⟨rfl, rfl, hasArgs_argsOfValue hgives line note⟩
  | words hkey htext =>
      rw [ofEntries_module hname.noKeyword hkey]
      exact ⟨rfl, rfl, hasArgs_parseArgs hargs htext⟩
  | action hkey hvalue htext =>
      rw [ofEntries_action (.inl hkey)]
      exact runs_ofDescription_text hname hargs hvalue htext task.line
  | localAction hkey hfirst hvalue hgives =>
      rw [ofEntries_action (.inr hkey)]
      exact runs_ofDescription_mapping hargs hfirst hvalue hgives task.line _ _
  | @apart _ _ _ line note _ _ hkey hvalue hother hgives hall =>
      rw [ofEntries_apart hname.noKeyword hkey hother hall, argsOfValue_of_isNull hvalue]
      exact ⟨rfl, rfl, hasArgs_argsOfValue hgives line note⟩

/-- **The spelling of an action does not matter.**  A task runs the module that it spells with the
arguments that it spells, however it does so, and tasks that spell the same have the same action up
to lines. -/
theorem ofTask_spec (hname : SpellableModule name) (hargs : ∀ arg ∈ args, SpellableArg arg)
    {task : Node} (h : SpellsAction name args task) :
    (ofTask task).Runs name args ∧
      ∀ other, SpellsAction name args other → (ofTask task).Alike (ofTask other) := by
  have hruns := runs_ofTask hname hargs h
  exact ⟨hruns, fun other hother => hruns.alike (runs_ofTask hname hargs hother)⟩

/-- Two arguments, spelled in all five ways. -/
theorem ofTask_spec_copy :
    let string (text : String) : Node := .string 1 text
    let entries : List (Node × Node) :=
      [(string "src", .string 2 "a b"), (string "content", .string 3 "x='1' # y")]
    let text := "src=\"a b\" content=\"x='1' # y\""
    let named (entries : List (Node × Node)) : Node :=
      .mapping 1 none ([(string "name", string "Copy")] ++ entries)
    let tasks : List Node := [
      named [(string "my.copy", .mapping 1 none entries)],
      named [(string "my.copy", string text)],
      named [(string "action", string ("my.copy " ++ text))],
      named [(string "local_action",
        .mapping 6 none ((string "module", string "my.copy") :: entries))],
      named [(string "args", .mapping 7 none entries), (string "my.copy", Node.null 8)]]
    ∀ task ∈ tasks, (ofTask task).module = "copy" ∧
      ∀ other ∈ tasks, (ofTask task).Alike (ofTask other) := by
  intro string entries text named tasks
  let args := [("src", "a b"), ("content", "x='1' # y")]
  have hname : SpellableModule "my.copy" :=
    ⟨by decide, by simp [Text.isBlank], by simp [isTaskKeyword, taskKeywords]⟩
  have hargs : ∀ arg ∈ args, SpellableArg arg := by
    refine List.forall_mem_cons.mpr ⟨?_, List.forall_mem_singleton.mpr ?_⟩
    · exact ⟨by decide, by decide, by simp, by simp [Text.isBlank], by simp, by simp⟩
    · exact ⟨by decide, by decide, by simp, by simp [Text.isBlank], by simp, by simp⟩
  have hgives : GivesArgs args entries := .cons ⟨rfl, 2, rfl⟩ (.cons ⟨rfl, 3, rfl⟩ .nil)
  have hnamed : ∀ {own : List (Node × Node)}, Spelling "my.copy" args own →
      SpellsAction "my.copy" args (named own) := fun hspelling =>
    hspelling.spellsAction hname.noKeyword (List.forall_mem_singleton.mpr (by decide)) 1 none
  have hspells : ∀ task ∈ tasks, SpellsAction "my.copy" args task := by
    refine List.forall_mem_cons.mpr ⟨hnamed (.mapping rfl hgives), ?_⟩
    refine List.forall_mem_cons.mpr ⟨hnamed (.words rfl (by decide)), ?_⟩
    refine List.forall_mem_cons.mpr ⟨hnamed (.action rfl rfl (by decide)), ?_⟩
    refine List.forall_mem_cons.mpr ⟨hnamed (.localAction rfl rfl rfl hgives), ?_⟩
    exact List.forall_mem_singleton.mpr (hnamed (.apart rfl rfl rfl hgives (.inr rfl)))
  intro task htask
  obtain ⟨hruns, halike⟩ := ofTask_spec hname hargs (hspells task htask)
  refine ⟨hruns.module_eq.trans (by decide), fun other hother => ?_⟩
  exact halike other (hspells other hother)

end Action

end PlaybookLint
