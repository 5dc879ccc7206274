import PlaybookLint.Proofs.Spelling
import PlaybookLint.Rule.Tasks

/-!
# Pinned packages

A package manager that is asked for the latest version may be held back by one of its arguments. If
the arguments stand in a mapping, their values have types, and a value that is false holds nothing
back. If they stand in a text as words, every value is a string, and so `no` counts as true. This
module says what that difference comes to: the two ways to write the arguments are judged alike,
unless the latest version is asked for and all that would hold it back is false.

## Main definitions

* `PlainArg` - an argument that is a word without quotes.
* `Task.NamesModule` - a task that names its module over some value.
* `Action.Reads` - arguments that are some texts, each of them read in some way.
* `PinnedByFalse` - the latest version is asked for and pinned by false values alone.

## Main statements

* `Action.installsLatest_iff` - what the rule asks of the texts of the arguments.
* `judged_alike_iff` - which arguments are judged alike as values and as words.
-/

namespace PlaybookLint

open Rule.LatestPackage (packageManagers pinningArgs installsLatest onTask)

/-! ### Arguments without quotes -/

/-- A text without blanks, quotes and equals signs. -/
def IsBareText (text : String) : Prop :=
  ∀ c ∈ text.toList, Text.isBlank c = false ∧ (c ≠ '"' ∧ c ≠ '\'') ∧ c ≠ '='

instance (text : String) : Decidable (IsBareText text) :=
  List.decidableBAll (fun c => Text.isBlank c = false ∧ (c ≠ '"' ∧ c ≠ '\'') ∧ c ≠ '=') text.toList

/-- An argument that is a word without quotes: its name, an equals sign and its value, which may be
empty. -/
structure PlainArg (arg : String × String) : Prop where
  ne_empty : arg.1 ≠ ""
  name : IsBareText arg.1
  value : IsBareText arg.2

instance (arg : String × String) : Decidable (PlainArg arg) :=
  decidable_of_iff (arg.1 ≠ "" ∧ IsBareText arg.1 ∧ IsBareText arg.2)
    ⟨fun ⟨hne, hname, hvalue⟩ => ⟨hne, hname, hvalue⟩, fun h => ⟨h.ne_empty, h.name, h.value⟩⟩

/-- The word that an argument is. -/
def plainWord (arg : String × String) : List Char :=
  arg.1.toList ++ '=' :: arg.2.toList

/-- The value is a mapping of the arguments, each of them a plain scalar. -/
def GivesPlain (args : List (String × String)) (value : Node) : Prop :=
  ∃ line note entries, value = .mapping line note entries ∧
    List.Forall₂ (fun arg e => e.1.string? = some arg.1 ∧
      e.2.scalar? = some (Scalar.resolve arg.2 .plain)) args entries

/-- The value is a text of the arguments, with a blank between two of them. -/
def SpellsPlain (args : List (String × String)) (value : Node) : Prop :=
  ∃ line note text, value = .scalar line note (.string text) ∧
    text.toList = [' '].intercalate (args.map plainWord)

/-- The text of the last argument with a name. -/
def lastText (args : List (String × String)) (name : String) : Option String :=
  (args.reverse.find? fun arg => arg.1 = name).map Prod.snd

/-- The latest version is asked for, and what is there to pin it is false, though not empty. -/
structure PinnedByFalse (args : List (String × String)) : Prop where
  latest : lastText args "state" = some "latest"
  pinned : ∃ name ∈ pinningArgs, ∃ text, lastText args name = some text ∧ text ≠ ""
  allFalse : ∀ name ∈ pinningArgs, ∀ text, lastText args name = some text →
    (Scalar.resolve text .plain).isTruthy = false

namespace Action

/-! ### Reading words -/

section Words

variable {arg : String × String}

theorem unquoteWith?_eq_none {quote : Char} {cs : List Char} (h : ∀ c ∈ cs, c ≠ quote) :
    unquoteWith? quote cs = none := by
  cases cs with
  | nil => rfl
  | cons c cs =>
      have hc := (List.forall_mem_cons.mp h).1
      rw [unquoteWith?, if_neg fun hboth => hc hboth.1]

theorem unquote_eq_self {cs : List Char} (h : ∀ c ∈ cs, c ≠ '"' ∧ c ≠ '\'') : unquote cs = cs := by
  rw [unquote, unquoteWith?_eq_none fun c hc => (h c hc).1,
    unquoteWith?_eq_none fun c hc => (h c hc).2]
  rfl

/-- Nothing in the word opens quotes or divides words. -/
theorem unbroken_plainWord (h : PlainArg arg) :
    Quoting.outside.Unbroken (plainWord arg) ∧
      Quoting.outside.after (plainWord arg) = .outside := by
  have hall : ∀ c ∈ plainWord arg, (c ≠ '"' ∧ c ≠ '\'') ∧ Text.isBlank c = false := by
    intro c hc
    rcases List.mem_append.mp hc with hname | hrest
    · exact ⟨(h.name c hname).2.1, (h.name c hname).1⟩
    · rcases List.mem_cons.mp hrest with rfl | hvalue
      · decide
      · exact ⟨(h.value c hvalue).2.1, (h.value c hvalue).1⟩
  exact ⟨Quoting.unbroken_outside (fun c hc => (hall c hc).1) fun c hc => (hall c hc).2,
    Quoting.after_outside fun c hc => (hall c hc).1⟩

/-- The word that an argument is, is read as this argument. -/
theorem wordArg?_plainWord (h : PlainArg arg) (line : Nat) :
    wordArg? line (plainWord arg) = some (arg.1, .string line arg.2) := by
  have hcut : Text.splitOnce (· = '=') (plainWord arg) = some (arg.1.toList, arg.2.toList) :=
    Text.splitOnce_append (by simpa using fun c hc => (h.name c hc).2.2) rfl _
  rw [wordArg?, hcut]
  obtain ⟨name, value⟩ := arg
  cases hname : name.toList with
  | nil => exact absurd (String.toList_eq_nil_iff.mp hname) h.ne_empty
  | cons c cs =>
      obtain ⟨-, ⟨hdouble, hsingle⟩, -⟩ := h.name c (by simp [hname])
      have hback : String.ofList (c :: cs) = name := by rw [← hname, String.ofList_toList]
      have hvalue : unquote value.toList = value.toList :=
        unquote_eq_self fun c hc => (h.value c hc).2.1
      simp [hdouble, hsingle, hback, hvalue]

end Words

/-! ### Arguments as texts -/

/-- The arguments of an action are some texts, in order, each of them read in some way. -/
def Reads (read : String → Scalar) (args : List (String × String)) (a : Action) : Prop :=
  List.Forall₂ (fun arg own => own.1 = arg.1 ∧ own.2.scalar? = some (read arg.2)) args a.args

theorem reads_of_givesPlain {args : List (String × String)} {value : Node}
    (h : GivesPlain args value) (name : String) :
    (ofModule name (argsOfValue value)).Reads (fun text => Scalar.resolve text .plain) args := by
  obtain ⟨line, note, entries, rfl, hentries⟩ := h
  exact forall₂_argsOfValue (hentries.imp fun _ _ hfirst => ⟨_, hfirst.1, rfl, hfirst.2⟩) line note

theorem reads_of_spellsPlain {args : List (String × String)} {value : Node}
    (hargs : ∀ arg ∈ args, PlainArg arg) (h : SpellsPlain args value) (name : String) :
    (ofModule name (argsOfValue value)).Reads .string args := by
  obtain ⟨line, note, text, rfl, htext⟩ := h
  have hread : parseArgs line text.toList = args.map fun arg => (arg.1, .string line arg.2) := by
    rw [htext]
    refine parseArgs_intercalate fun arg harg => ?_
    obtain ⟨hunbroken, hclosed⟩ := unbroken_plainWord (hargs arg harg)
    exact ⟨by simp [plainWord], hunbroken, hclosed, wordArg?_plainWord (hargs arg harg) line⟩
  show List.Forall₂ _ args (parseArgs line text.toList)
  rw [hread, List.forall₂_map_right_iff, List.forall₂_same]
  exact fun arg _ => ⟨rfl, rfl⟩

theorem rel_find? {R : α → β → Prop} {p : α → Bool} {q : β → Bool} {l : List α} {m : List β}
    (h : List.Forall₂ R l m) (hpq : ∀ a b, R a b → p a = q b) :
    Option.Rel R (l.find? p) (m.find? q) := by
  induction h with
  | nil => exact .none
  | @cons a b l m hab _ ih =>
      rw [List.find?_cons, List.find?_cons, ← hpq a b hab]
      cases p a with
      | true => exact .some hab
      | false => exact ih

/-- The argument with a name is the last text with this name. -/
theorem Reads.arg? {read : String → Scalar} {args : List (String × String)} {a : Action}
    (h : a.Reads read args) (name : String) :
    (a.arg? name).bind Tree.scalar? = (lastText args name).map read ∧
      ∀ node, a.arg? name = some node → node.scalar?.isSome = true := by
  have hfound := rel_find? (p := fun arg => arg.1 = name) (q := fun own => own.1 = name)
    (List.forall₂_reverse_iff.mpr h) fun arg own hown => by rw [hown.1]
  rw [lastText, Action.arg?]
  generalize (args.reverse.find? fun arg => arg.1 = name) = last at hfound
  generalize (a.args.reverse.find? fun own => own.1 = name) = own at hfound
  cases hfound with
  | none => exact ⟨rfl, nofun⟩
  | some hown =>
      refine ⟨hown.2, fun node hnode => ?_⟩
      cases hnode
      rw [hown.2]
      rfl

theorem isTruthy_of_scalar? {node : Node} {value : Scalar} (h : node.scalar? = some value) :
    node.isTruthy = value.isTruthy := by
  cases node with
  | scalar =>
      cases h
      rfl
  | sequence | mapping => exact nomatch h

/-- Whether an argument counts as true depends on the last text with its name. -/
theorem Reads.argIsTruthy {read : String → Scalar} {args : List (String × String)} {a : Action}
    (h : a.Reads read args) (name : String) :
    a.argIsTruthy name = (lastText args name).any fun text => (read text).isTruthy := by
  obtain ⟨hvalue, hscalar⟩ := h.arg? name
  rw [Action.argIsTruthy]
  cases hnode : a.arg? name with
  | none =>
      rw [hnode, Option.bind_none, eq_comm, Option.map_eq_none_iff] at hvalue
      rw [hvalue]
      rfl
  | some node =>
      obtain ⟨value, hown⟩ := Option.isSome_iff_exists.mp (hscalar node hnode)
      rw [hnode, Option.bind_some, hown, eq_comm, Option.map_eq_some_iff] at hvalue
      obtain ⟨text, htext, rfl⟩ := hvalue
      rw [htext]
      exact isTruthy_of_scalar? hown

/-- **What the rule asks of the texts of the arguments.** -/
theorem installsLatest_iff {read : String → Scalar} {args : List (String × String)} {a : Action}
    (h : a.Reads read args) :
    installsLatest a = true ↔ packageManagers.contains a.module = true ∧
      (∀ name ∈ pinningArgs, ∀ text, lastText args name = some text →
        (read text).isTruthy = false) ∧
      ∃ text, lastText args "state" = some text ∧ read text = .string "latest" := by
  have hpinned : pinningArgs.any a.argIsTruthy = false ↔ ∀ name ∈ pinningArgs, ∀ text,
      lastText args name = some text → (read text).isTruthy = false := by
    rw [List.any_eq_false]
    refine forall₂_congr fun name _ => ?_
    rw [h.argIsTruthy]
    cases lastText args name <;> simp
  have hstate : (a.arg? "state").bind Tree.string? = some "latest" ↔
      ∃ text, lastText args "state" = some text ∧ read text = .string "latest" := by
    have hstring : (a.arg? "state").bind Tree.string? =
        ((lastText args "state").map read).bind Scalar.string? := by
      rw [← (h.arg? "state").1, Option.bind_assoc]
      rfl
    rw [hstring, Option.bind_eq_some_iff]
    constructor
    · rintro ⟨value, hvalue, hlatest⟩
      obtain ⟨text, htext, rfl⟩ := Option.map_eq_some_iff.mp hvalue
      refine ⟨text, htext, ?_⟩
      cases hread : read text <;> rw [hread] at hlatest <;> cases hlatest
      rfl
    · rintro ⟨text, htext, hread⟩
      exact ⟨_, Option.map_eq_some_iff.mpr ⟨text, htext, hread⟩, rfl⟩
  rw [installsLatest, Bool.and_eq_true, Bool.and_eq_true, Bool.not_eq_true', hpinned,
    decide_eq_true_iff, hstate, and_assoc]

end Action

/-! ### Plain values -/

namespace Scalar

theorem resolve_eq_latest_iff {text : String} :
    resolve text .plain = .string "latest" ↔ text = "latest" := by
  constructor
  · intro h
    simp only [resolve, ofPlain] at h
    split at h
    · cases h
    · split at h
      · cases h
      · split at h
        · cases h
        · split at h <;> cases h
          rfl
  · rintro rfl
    decide +kernel

theorem isTruthy_string {text : String} : (Scalar.string text).isTruthy = false ↔ text = "" := by
  simp [isTruthy]

end Scalar

/-! ### Verdicts -/

/-- A task names its module over a value: it holds no other tasks, and its action depends on none of
its other entries. -/
structure NamesModule (name : String) (value node : Node) : Prop where
  noContainer : node.isContainer = false
  entry : ∃ key, key.string? = some name ∧ node.entries.filter concernsAction = [(key, value)]

theorem NamesModule.ofNode? {name : String} {value node : Node} (h : NamesModule name value node)
    (hname : isTaskKeyword name = false) (isHandler : Bool) :
    Task.ofNode? isHandler node =
      some ⟨node, .ofModule name (Action.argsOfValue value), isHandler⟩ := by
  obtain ⟨key, hkey, hentries⟩ := h.entry
  have hmapping : node.isMapping = true := by
    cases node with
    | mapping => rfl
    | scalar | sequence => cases hentries
  have haction : Action.ofTask node = .ofModule name (Action.argsOfValue value) := by
    rw [Action.ofTask_eq_ofEntries h.noContainer, hentries, Action.ofEntries_module hname hkey]
  rw [Task.ofNode?, if_pos hmapping, haction]

/-- A task with nothing but a module names it. -/
theorem namesModule_singleton {name : String} {key : Node} (hkey : key.string? = some name)
    (hname : isTaskKeyword name = false) (value : Node) (line : Nat)
    (note : Option (List String)) :
    NamesModule name value (.mapping line note [(key, value)]) := by
  have hnested : ∀ own ∈ nestedTaskKeys, name ≠ own := fun own hown =>
    ne_of_isTaskKeyword hname (by revert own; decide)
  constructor
  · rw [Tree.isContainer, List.any_eq_false]
    intro own hown
    simp [Tree.get?, Tree.lookup?, Tree.entries, Tree.entries?, Tree.lookupFrom, hkey,
      hnested own hown]
  · exact ⟨key, hkey, by simp [Tree.entries, Tree.entries?, concernsAction, hkey, hname]⟩

section Verdicts

variable {name : String} {args : List (String × String)} {values words : Node}

/-- Arguments in a mapping install the latest version if it is asked for and all that would pin it
is false. -/
theorem installsLatest_values_iff
    (hmanager : packageManagers.contains (Action.shortName name) = true)
    {value : Node} (h : GivesPlain args value) :
    installsLatest (.ofModule name (Action.argsOfValue value)) = true ↔
      lastText args "state" = some "latest" ∧ ∀ pin ∈ pinningArgs, ∀ text,
        lastText args pin = some text → (Scalar.resolve text .plain).isTruthy = false := by
  rw [Action.installsLatest_iff (Action.reads_of_givesPlain h name)]
  simp only [Scalar.resolve_eq_latest_iff, exists_eq_right]
  exact ⟨fun h => ⟨h.2.2, h.2.1⟩, fun h => ⟨hmanager, h.2, h.1⟩⟩

/-- Arguments in a text install the latest version if it is asked for and all that would pin it is
empty. -/
theorem installsLatest_words_iff
    (hmanager : packageManagers.contains (Action.shortName name) = true)
    (hargs : ∀ arg ∈ args, PlainArg arg) {value : Node} (h : SpellsPlain args value) :
    installsLatest (.ofModule name (Action.argsOfValue value)) = true ↔
      lastText args "state" = some "latest" ∧ ∀ pin ∈ pinningArgs, ∀ text,
        lastText args pin = some text → text = "" := by
  rw [Action.installsLatest_iff (Action.reads_of_spellsPlain hargs h name)]
  simp only [Scalar.isTruthy_string, Scalar.string.injEq, exists_eq_right]
  exact ⟨fun h => ⟨h.2.2, h.2.1⟩, fun h => ⟨hmanager, h.2, h.1⟩⟩

/-- **Which arguments are judged alike as values and as words.**  Take a package manager with some
arguments, once with the arguments in a mapping, as plain scalars, and once with the arguments in a
text. The two tasks get the same verdict, unless the latest version is asked for and pinned by false
values alone. Then only the arguments in the mapping are a violation. -/
theorem judged_alike_iff (hmanager : packageManagers.contains (Action.shortName name) = true)
    (hname : isTaskKeyword name = false) (hargs : ∀ arg ∈ args, PlainArg arg)
    (hvalues : ∃ value, GivesPlain args value ∧ NamesModule name value values)
    (hwords : ∃ value, SpellsPlain args value ∧ NamesModule name value words)
    (doc doc' : Document) (isHandler isHandler' : Bool) :
    ∃ task task', Task.ofNode? isHandler values = some task ∧
      Task.ofNode? isHandler' words = some task' ∧
      (onTask doc task = onTask doc' task' ↔ ¬ PinnedByFalse args) ∧
      (PinnedByFalse args → onTask doc task = .violation ∧ onTask doc' task' = .pass) := by
  obtain ⟨value, hgives, hvalues⟩ := hvalues
  obtain ⟨value', hspells, hwords⟩ := hwords
  refine ⟨_, _, hvalues.ofNode? hname isHandler, hwords.ofNode? hname isHandler', ?_⟩
  have hofValues := installsLatest_values_iff hmanager hgives
  have hofWords := installsLatest_words_iff hmanager hargs hspells
  -- an empty text is false as a value too, so that words install the latest version less often
  have hless : installsLatest (.ofModule name (Action.argsOfValue value')) = true →
      installsLatest (.ofModule name (Action.argsOfValue value)) = true := by
    rw [hofValues, hofWords]
    rintro ⟨hlatest, hempty⟩
    refine ⟨hlatest, fun pin hpin text htext => ?_⟩
    rw [hempty pin hpin text htext]
    rfl
  have hpinned : PinnedByFalse args ↔
      installsLatest (.ofModule name (Action.argsOfValue value)) = true ∧
        ¬ installsLatest (.ofModule name (Action.argsOfValue value')) = true := by
    rw [hofValues, hofWords]
    constructor
    · rintro ⟨hlatest, ⟨pin, hpin, text, htext, hne⟩, hfalse⟩
      exact ⟨⟨hlatest, hfalse⟩, fun hempty => hne (hempty.2 pin hpin text htext)⟩
    · rintro ⟨⟨hlatest, hfalse⟩, hnot⟩
      refine ⟨hlatest, ?_, hfalse⟩
      by_contra hnone
      exact hnot ⟨hlatest, fun pin hpin text htext =>
        not_not.mp fun hne => hnone ⟨pin, hpin, text, htext, hne⟩⟩
  rw [hpinned]
  simp only [onTask]
  revert hless
  cases installsLatest (.ofModule name (Action.argsOfValue value)) <;>
    cases installsLatest (.ofModule name (Action.argsOfValue value')) <;> simp

/-- The theorem applies to a task with two arguments that pin the version, the first of them false
and the second one true: it passes both ways. -/
theorem judged_alike_downloaded :
    let args := [("state", "latest"), ("only_upgrade", "no"), ("download_only", "yes")]
    let string (text : String) : Node := .string 1 text
    let entries : List (Node × Node) :=
      [(string "state", string "latest"), (string "only_upgrade", .scalar 1 none (.bool false)),
        (string "download_only", .scalar 1 none (.bool true))]
    let task (value : Node) : Node := .mapping 1 none [(string "my.apt", value)]
    let verdict (value : Node) := (Task.ofNode? false (task value)).map (onTask default)
    (∀ arg ∈ args, PlainArg arg) ∧ GivesPlain args (.mapping 1 none entries) ∧
      ¬ PinnedByFalse args ∧ verdict (.mapping 1 none entries) =
        verdict (string "state=latest only_upgrade=no download_only=yes") := by
  intro args string entries task verdict
  have hargs : ∀ arg ∈ args, PlainArg arg := by decide
  have hgives : GivesPlain args (.mapping 1 none entries) :=
    ⟨1, none, entries, rfl,
      .cons ⟨rfl, by decide⟩ (.cons ⟨rfl, by decide⟩ (.cons ⟨rfl, by decide⟩ .nil))⟩
  have hspells : SpellsPlain args (string "state=latest only_upgrade=no download_only=yes") :=
    ⟨1, none, _, rfl, by decide⟩
  have hname : isTaskKeyword "my.apt" = false := by simp [isTaskKeyword, taskKeywords]
  have hnames : ∀ value, NamesModule "my.apt" value (task value) := fun value =>
    namesModule_singleton rfl hname value 1 none
  have hnot : ¬ PinnedByFalse args := fun h =>
    absurd (h.allFalse "download_only" (by decide) "yes" (by decide)) (by decide)
  obtain ⟨own, other, hown, hother, hsame, -⟩ :=
    judged_alike_iff (by decide) hname hargs
      ⟨_, hgives, hnames _⟩ ⟨_, hspells, hnames _⟩ default default false false
  refine ⟨hargs, hgives, hnot, ?_⟩
  show (Task.ofNode? false _).map _ = (Task.ofNode? false _).map _
  rw [hown, hother, Option.map_some, Option.map_some, hsame.mpr hnot]

/-- An argument that would pin the version is false. In a mapping it exempts the task from nothing;
as a word it counts as true, and the task passes. -/
theorem pinned_by_word_false :
    let args := [("name", "curl"), ("state", "latest"), ("only_upgrade", "false")]
    let verdicts (text : String) : List Verdict :=
      let doc := ((Document.ofText ⟨"tasks/main.yml"⟩ none text).toOption.map Prod.fst).getD default
      doc.tasks.map (onTask doc)
    (∀ arg ∈ args, PlainArg arg) ∧
      verdicts "- apt:\n    name: curl\n    state: latest\n    only_upgrade: false\n" =
        [.violation] ∧
      verdicts "- apt: name=curl state=latest only_upgrade=false\n" = [.pass] := by
  decide +kernel

end Verdicts

end PlaybookLint
