import Mathlib.Data.List.Forall2
import PlaybookLint.Proofs.Attachment
import PlaybookLint.Session

/-!
# Reading with a shared journal

A running linter has one journal, and whatever reads an identifier asks the journal what the
identifier is called today; the journal takes the occasion to note an outdated one. Here the
readings are written as computations that make such calls one at a time, so that it can be said what
happens between two calls of one reading. The calls that a reading makes do not depend on the
journal, and neither does its result: both can be read off the text.

## Main definitions

* `Call` - what the journal is asked, `Call.perform` - what comes of it.
* `Inquiry` - a computation that makes calls.
* `Inquiry.Makes` - which calls a computation makes, and what its result is like.
* `Document.ask`, `Request.ask`, `Session.ask` - the readings as computations that make calls.

## Main statements

* `Inquiry.Makes.run` - a computation that runs alone.
* `Document.makes_ask`, `Request.makes_ask`, `Session.makes_ask` - the calls of the readings.
* `Session.run_ask` - a session that runs alone is a session.

## Design notes

A call is one step: whether an identifier is news is decided and noted while nobody else looks at
the journal, and this alone decides whether something is said.
-/

namespace PlaybookLint

/-! ### Calls -/

/-- What an identifier is read for. -/
inductive Purpose where
  /-- For what is silenced line by line. -/
  | lines
  /-- For the list of a task or of a whole file. -/
  | list
  /-- For nothing else. -/
  | itself
  deriving Repr, DecidableEq

/-- What the journal is asked. -/
inductive Call where
  /-- To hear of an outdated identifier. -/
  | note (tag : String)
  /-- What an identifier on a line of a file is called today. -/
  | normalize (purpose : Purpose) (tag : String) (file : Path) (line : Nat)
  deriving Repr, DecidableEq

namespace Call

/-- What a call is answered with: whether the identifier is news, or its current name. -/
@[reducible] def Answer : Call → Type
  | note _ => Bool
  | normalize .. => String

/-- The identifier that a call is about. -/
def tag : Call → String
  | note tag | normalize _ tag _ _ => tag

/-- Whether a call is made for the list of a task or of a whole file. -/
def isForList : Call → Bool
  | normalize .list .. => true
  | _ => false

/-- What a call gives the journal to say, if that is news. -/
def notices : Call → List Notice
  | note _ => []
  | normalize _ tag file line => (Notice.ofTag? file line tag).toList

/-- What comes of a call. A current name is given at once; an outdated one is noted first, and it is
said so if that is news. -/
def perform : (c : Call) → Journal → c.Answer × Journal
  | note tag, j => j.note tag
  | normalize _ tag file line, j =>
    match Tag.current? tag with
    | some current =>
      match j.note tag with
      | (true, j) => (current, j.say (.outdated file line tag current))
      | (false, j) => (current, j)
    | none => (tag, j)

/-- The answers that a call can have, whatever the journal holds. -/
def Gives : (c : Call) → c.Answer → Prop
  | note _, _ => True
  | normalize _ tag _ _, name => name = Tag.normalize tag

/-- The journal after a call for the name of an identifier. -/
theorem perform_normalize (purpose : Purpose) (tag : String) (file : Path) (line : Nat)
    (j : Journal) :
    (normalize purpose tag file line).perform j =
      (Tag.normalize tag, j.reportAll (Notice.ofTag? file line tag).toList) := by
  rw [perform, Tag.normalize, Notice.ofTag?]
  cases Tag.current? tag with
  | none => rfl
  | some current =>
      simp only [Option.map_some, Option.toList_some, Option.getD_some, Journal.reportAll,
        List.foldl_cons, List.foldl_nil, Journal.report, Notice.tag?]
      rcases j.note tag with ⟨isNews, j'⟩
      cases isNews <;> rfl

theorem gives_perform (c : Call) (j : Journal) : c.Gives (c.perform j).1 := by
  cases c with
  | note tag => trivial
  | normalize purpose tag file line => exact congrArg Prod.fst (perform_normalize ..)

end Call

/-- The journal after some calls. -/
def Journal.after (j : Journal) (calls : List Call) : Journal :=
  calls.foldl (fun j c => (c.perform j).2) j

@[simp] theorem Journal.after_nil (j : Journal) : j.after [] = j := rfl

@[simp] theorem Journal.after_cons (j : Journal) (c : Call) (calls : List Call) :
    j.after (c :: calls) = (c.perform j).2.after calls := rfl

@[simp] theorem Journal.after_append (j : Journal) (calls more : List Call) :
    j.after (calls ++ more) = (j.after calls).after more :=
  List.foldl_append

/-! ### Computations that make calls -/

/-- A computation that makes calls on its way to a result. -/
inductive Inquiry (α : Type) where
  | done (result : α)
  | call (c : Call) (next : c.Answer → Inquiry α)

namespace Inquiry

/-- One computation after the other. -/
def bind : Inquiry α → (α → Inquiry β) → Inquiry β
  | done a, f => f a
  | call c next, f => call c fun answer => (next answer).bind f

instance : Monad Inquiry where
  pure := done
  bind := bind

theorem bind_assoc (p : Inquiry α) (f : α → Inquiry β) (g : β → Inquiry γ) :
    (p.bind f).bind g = p.bind fun a => (f a).bind g := by
  induction p with
  | done a => rfl
  | call c next ih => exact congrArg (call c) (funext ih)

theorem bind_done (p : Inquiry α) : p.bind done = p := by
  induction p with
  | done a => rfl
  | call c next ih => exact congrArg (call c) (funext ih)

instance : LawfulMonad Inquiry :=
  .mk' Inquiry bind_done (fun _ _ => rfl) bind_assoc

/-- What an identifier on a line of a file is called today. -/
def normalize (purpose : Purpose) (file : Path) (line : Nat) (tag : String) : Inquiry String :=
  call (.normalize purpose tag file line) done

/-- The computation from some journal on, with nobody else around: its result, and the journal
afterwards. -/
def run : Inquiry α → Journal → α × Journal
  | done a, j => (a, j)
  | call c next, j => (next (c.perform j).1).run (c.perform j).2

/-- The computation makes exactly these calls, and its result is as `post` says, whatever answers
that they can have the calls are given. -/
def Makes (post : α → Prop) : Inquiry α → List Call → Prop
  | done a, calls => calls = [] ∧ post a
  | call c next, calls => ∃ rest, calls = c :: rest ∧
      ∀ answer, c.Gives answer → (next answer).Makes post rest

theorem makes_pure {post : α → Prop} {a : α} (h : post a) : (pure a : Inquiry α).Makes post [] :=
  ⟨rfl, h⟩

theorem Makes.mono {p : Inquiry α} {post post' : α → Prop} {calls : List Call}
    (h : p.Makes post calls) (hpost : ∀ a, post a → post' a) : p.Makes post' calls := by
  induction p generalizing calls with
  | done a => exact ⟨h.1, hpost a h.2⟩
  | call c next ih =>
      obtain ⟨rest, rfl, hnext⟩ := h
      exact ⟨rest, rfl, fun answer hanswer => ih answer (hnext answer hanswer)⟩

theorem Makes.bind {p : Inquiry α} {f : α → Inquiry β} {post : α → Prop} {post' : β → Prop}
    {calls more : List Call} (hp : p.Makes post calls)
    (hf : ∀ a, post a → (f a).Makes post' more) : (p >>= f).Makes post' (calls ++ more) := by
  induction p generalizing calls with
  | done a =>
      obtain ⟨rfl, ha⟩ := hp
      exact hf a ha
  | call c next ih =>
      obtain ⟨rest, rfl, hnext⟩ := hp
      exact ⟨rest ++ more, rfl, fun answer hanswer => ih answer (hnext answer hanswer)⟩

/-- What comes after the calls. -/
theorem Makes.map {p : Inquiry α} {f : α → β} {post : α → Prop} {post' : β → Prop}
    {calls : List Call} (hp : p.Makes post calls) (hf : ∀ a, post a → post' (f a)) :
    (do return f (← p) : Inquiry β).Makes post' calls := by
  have hbind := hp.bind fun a ha => makes_pure (hf a ha)
  rwa [List.append_nil] at hbind

theorem makes_normalize (purpose : Purpose) (file : Path) (line : Nat) (tag : String) :
    (normalize purpose file line tag).Makes (· = Tag.normalize tag)
      [.normalize purpose tag file line] :=
  ⟨[], rfl, fun _ hanswer => ⟨rfl, hanswer⟩⟩

/-- One computation for each element of a list. -/
theorem makes_mapM {f : β → Inquiry α} {post : β → α → Prop} {callsOf : β → List Call}
    (bs : List β) (h : ∀ b ∈ bs, (f b).Makes (post b) (callsOf b)) :
    (bs.mapM f).Makes (List.Forall₂ post bs) (bs.flatMap callsOf) := by
  induction bs with
  | nil => exact makes_pure .nil
  | cons b bs ih =>
      obtain ⟨hb, hbs⟩ := List.forall_mem_cons.mp h
      rw [List.mapM_cons, List.flatMap_cons]
      exact hb.bind fun a ha => (ih hbs).map fun as has => .cons ha has

/-- The same if each result is known. -/
theorem makes_mapM_eq {f : β → Inquiry α} {g : β → α} {callsOf : β → List Call}
    (bs : List β) (h : ∀ b ∈ bs, (f b).Makes (· = g b) (callsOf b)) :
    (bs.mapM f).Makes (· = bs.map g) (bs.flatMap callsOf) := by
  refine (makes_mapM bs h).mono fun as has => ?_
  induction has with
  | nil => rfl
  | cons ha _ ih => rw [List.map_cons, ha, ih (List.forall_mem_cons.mp h).2]

/-- **A computation that runs alone** has such a result, and leaves the journal as its calls do. -/
theorem Makes.run {p : Inquiry α} {post : α → Prop} {calls : List Call} (h : p.Makes post calls)
    (j : Journal) : post (p.run j).1 ∧ (p.run j).2 = j.after calls := by
  induction p generalizing calls j with
  | done a =>
      obtain ⟨rfl, ha⟩ := h
      exact ⟨ha, rfl⟩
  | call c next ih =>
      obtain ⟨rest, rfl, hnext⟩ := h
      exact ih _ (hnext _ (c.gives_perform j)) _

theorem run_bind (p : Inquiry α) (f : α → Inquiry β) (j : Journal) :
    (p >>= f).run j = (f (p.run j).1).run (p.run j).2 := by
  induction p generalizing j with
  | done a => rfl
  | call c next ih => exact ih _ _

end Inquiry

/-! ### Readings that make calls -/

/-- The calls about the identifiers of a comment. -/
def Comment.calls (purpose : Purpose) (file : Path) (c : Comment) : List Call :=
  c.names.map fun tag => .normalize purpose tag file c.line

/-- The calls about the identifiers in the markers among some comments. -/
def callsOf (purpose : Purpose) (file : Path) (comments : List Comment) : List Call :=
  (comments.filter Comment.isMarker).flatMap (Comment.calls purpose file)

/-- The identifiers in a comment under their current names. -/
def Comment.askSkips (purpose : Purpose) (file : Path) (c : Comment) : Inquiry (List String) :=
  c.names.mapM (.normalize purpose file c.line)

theorem Comment.makes_askSkips (purpose : Purpose) (file : Path) (c : Comment) :
    (c.askSkips purpose file).Makes (· = c.skips) (c.calls purpose file) := by
  have hnames := Inquiry.makes_mapM_eq c.names
    fun tag _ => Inquiry.makes_normalize purpose file c.line tag
  rwa [← List.map_eq_flatMap] at hnames

/-- What the markers of a file silence, line by line. -/
def CommentTree.askLineSkips (file : Path) (tree : CommentTree) : Inquiry SuppressionMap := do
  let marked ← (tree.comments.filter Comment.isMarker).mapM fun c => do
    return (c.line, ← c.askSkips .lines file)
  let map := marked.foldl (fun map (line, names) => map.add line names) SuppressionMap.empty
  return map.carryOver tree.lines

theorem CommentTree.makes_askLineSkips (file : Path) (tree : CommentTree) :
    (tree.askLineSkips file).Makes (· = tree.lineSkips) (callsOf .lines file tree.comments) := by
  have hmarked := Inquiry.makes_mapM_eq (tree.comments.filter Comment.isMarker) fun c _ =>
    (Comment.makes_askSkips .lines file c).map fun names hnames =>
      show (c.line, names) = (c.line, c.skips) by rw [hnames]
  refine hmarked.map fun marked h => ?_
  rw [h, List.foldl_map]
  rfl

/-- The list of the identifiers that the markers among some comments name. -/
def askList (file : Path) (comments : List Comment) : Inquiry (List String) := do
  let names ← (comments.filter Comment.isMarker).mapM (Comment.askSkips .list file)
  return NameSet.ofList names.flatten

theorem makes_askList (file : Path) (comments : List Comment) :
    (askList file comments).Makes (· = skipsOfComments comments) (callsOf .list file comments) := by
  have hnames := Inquiry.makes_mapM_eq (comments.filter Comment.isMarker) fun c _ =>
    Comment.makes_askSkips .list file c
  refine hnames.map fun names h => ?_
  rw [h, skipsOfComments, List.flatMap_def]

namespace Plan

/-- The tree with all lists of the plan attached, or as it was if the tasks do not agree. -/
def ask (file : Path) (plan : Plan) (root : Node) : Inquiry Node := do
  let lists ← plan.tasks.mapM fun task => do
    return (task.path, ← askList file task.comments.comments)
  return if plan.mismatch.isSome then root
    else lists.foldl (fun root (path, skips) => root.updateAt (Tree.setNote (some skips)) path) root

/-- The calls about the markers of planned tasks. -/
def calls (file : Path) (plan : Plan) : List Call :=
  plan.tasks.flatMap fun task => callsOf .list file task.comments.comments

theorem makes_ask (file : Path) (plan : Plan) (root : Node) :
    (plan.ask file root).Makes (· = plan.apply root) (plan.calls file) := by
  have hlists := Inquiry.makes_mapM_eq plan.tasks fun task _ =>
    (makes_askList file task.comments.comments).map fun skips hskips =>
      show (task.path, skips) = (task.path, task.comments.subtreeSkips) by
        rw [hskips, Tree.subtreeSkips]
  refine hlists.map fun lists h => ?_
  rw [h, List.foldl_map]
  rfl

end Plan

/-- The content of a file with the suppression lists of its comments. -/
def askAttach (file : Path) (kind : FileKind) (tree : CommentTree) (root : Node) : Inquiry Node :=
  if kind.isFlat then do return attachToRoot (← askList file tree.comments) root
  else
    match correlate kind root tree.root? with
    | some pairs => (Plan.ofPairs pairs).ask file root
    | none => return root

/-- The calls about the markers whose lists are attached. -/
def attachCalls (file : Path) (kind : FileKind) (tree : CommentTree) (root : Node) : List Call :=
  if kind.isFlat then callsOf .list file tree.comments
  else
    match correlate kind root tree.root? with
    | some pairs => (Plan.ofPairs pairs).calls file
    | none => []

theorem makes_askAttach (file : Path) (kind : FileKind) (tree : CommentTree) (root : Node) :
    (askAttach file kind tree root).Makes (· = attachSkips kind tree root)
      (attachCalls file kind tree root) := by
  rw [askAttach, attachSkips, attachCalls]
  split
  · exact (makes_askList file tree.comments).map fun skips hskips => by rw [hskips]
  · cases correlate kind root tree.root? with
    | some pairs => exact Plan.makes_ask file (Plan.ofPairs pairs) root
    | none => exact Inquiry.makes_pure rfl

namespace Document

/-- The document of a text. The markers are read for the lines first, then for the lists. -/
def ask (path : Path) (kind : Option FileKind) (text : String) :
    Inquiry (Except Yaml.Error Document) :=
  match Yaml.Event.read text with
  | .error e => return .error e
  | .ok events => do
    let root := Node.ofEvents events
    let tree := CommentTree.ofEvents text.toList events
    let kind := kind.getD (FileKind.detect path root)
    let lineSkips ← tree.askLineSkips path
    let data ← askAttach path kind tree root
    return .ok { path := path, kind := kind, role := roleOf path, data := data,
                 lineSkips := lineSkips }

/-- The calls about the markers of a text: first for the lines, then for the lists. -/
def calls (path : Path) (kind : Option FileKind) (text : String) : List Call :=
  match Yaml.Event.read text with
  | .error _ => []
  | .ok events =>
    let root := Node.ofEvents events
    let tree := CommentTree.ofEvents text.toList events
    callsOf .lines path tree.comments ++
      attachCalls path (kind.getD (FileKind.detect path root)) tree root

/-- **The calls of a document**, and what it is in the end. -/
theorem makes_ask (path : Path) (kind : Option FileKind) (text : String) :
    (ask path kind text).Makes (· = (ofText path kind text).map Prod.fst)
      (calls path kind text) := by
  rw [ask, calls, ofText]
  cases Yaml.Event.read text with
  | error e => exact Inquiry.makes_pure rfl
  | ok events =>
      refine (CommentTree.makes_askLineSkips path _).bind fun lineSkips hlines => ?_
      refine (makes_askAttach path _ _ _).map fun data hdata => ?_
      rw [hlines, hdata]
      rfl

end Document

/-! ### Sessions that make calls -/

namespace Request

/-- What a running linter does about a request. -/
def ask (rules : List Rule) : Request → Inquiry Response
  | .note tag => .call (.note tag) fun isNews => .done (.news isNews)
  | .normalize tag file line => do
    return .name (← .normalize .itself file line tag)
  | .marker text file line => do
    return .names (← (namesAfterMarker text.toList).mapM (.normalize .itself file line))
  | .lint file text => do
    match ← Document.ask file none text with
    | .ok doc => return .findings (doc.lint rules)
    | .error _ => return .malformed

/-- The calls that a request makes. -/
def calls : Request → List Call
  | .note tag => [.note tag]
  | .normalize tag file line => [.normalize .itself tag file line]
  | .marker text file line =>
    (namesAfterMarker text.toList).map fun tag => .normalize .itself tag file line
  | .lint file text => Document.calls file none text

/-- The response is the one that does not depend on the journal. Only the question whether an
identifier is news has none. -/
def IsAnswered (rules : List Rule) : Request → Response → Prop
  | .note _, response => ∃ isNews, response = .news isNews
  | request, response => response = (request.answer rules).1

/-- **The calls of a request**, and what is answered in the end. -/
theorem makes_ask (rules : List Rule) (request : Request) :
    (request.ask rules).Makes (request.IsAnswered rules) request.calls := by
  cases request with
  | note tag => exact ⟨[], rfl, fun isNews _ => ⟨rfl, isNews, rfl⟩⟩
  | normalize tag file line =>
      exact (Inquiry.makes_normalize .itself file line tag).map fun name hname =>
        congrArg Response.name hname
  | marker text file line =>
      have hnames := Inquiry.makes_mapM_eq (namesAfterMarker text.toList) fun tag _ =>
        Inquiry.makes_normalize .itself file line tag
      rw [← List.map_eq_flatMap] at hnames
      exact hnames.map fun names h => congrArg Response.names h
  | lint file text =>
      rw [calls, ← List.append_nil (Document.calls file none text)]
      refine (Document.makes_ask file none text).bind fun result hresult => ?_
      rw [hresult]
      cases hread : Document.ofText file none text with
      | error e =>
          refine Inquiry.makes_pure ?_
          simp only [IsAnswered, answer, hread]
      | ok made =>
          refine Inquiry.makes_pure ?_
          simp only [IsAnswered, answer, hread]

end Request

namespace Session

/-- A session as a computation that makes calls. -/
def ask (rules : List Rule) (requests : List Request) : Inquiry (List Response) :=
  requests.mapM (Request.ask rules)

/-- The calls that a session makes. -/
def calls (requests : List Request) : List Call :=
  requests.flatMap Request.calls

/-- **The calls of a session**, and what is answered in the end. -/
theorem makes_ask (rules : List Rule) (requests : List Request) :
    (ask rules requests).Makes (List.Forall₂ (Request.IsAnswered rules) requests)
      (calls requests) :=
  Inquiry.makes_mapM requests fun request _ => request.makes_ask rules

end Session

/-! ### One session alone -/

namespace Journal

theorem reportAll_append (j : Journal) (notices more : List Notice) :
    j.reportAll (notices ++ more) = (j.reportAll notices).reportAll more :=
  List.foldl_append

/-- Calls for names leave the journal as the notices about them do. -/
theorem after_normalize (purpose : Purpose) (file : Path) (line : Nat) (tags : List String)
    (j : Journal) :
    j.after (tags.map fun tag => .normalize purpose tag file line) =
      j.reportAll (tags.filterMap (Notice.ofTag? file line)) := by
  induction tags generalizing j with
  | nil => rfl
  | cons tag tags ih =>
      rw [List.map_cons, after_cons, Call.perform_normalize, ih, ← reportAll_append,
        List.filterMap_cons]
      cases Notice.ofTag? file line tag <;> rfl

theorem after_callsOf (purpose : Purpose) (file : Path) (comments : List Comment) (j : Journal) :
    j.after (callsOf purpose file comments) = j.reportAll (Notice.ofComments file comments) := by
  rw [callsOf, Notice.ofComments]
  induction comments.filter Comment.isMarker generalizing j with
  | nil => rfl
  | cons c comments ih =>
      rw [List.flatMap_cons, List.flatMap_cons, after_append, reportAll_append, ih, Comment.calls,
        after_normalize, Notice.ofComment]

theorem after_planCalls (file : Path) (tasks : List PlannedTask) (j : Journal) :
    j.after (Plan.calls file ⟨tasks, none⟩) = j.reportAll (Plan.notices file ⟨tasks, none⟩) := by
  rw [Plan.calls, Plan.notices, Option.toList_none, List.map_nil, List.append_nil]
  dsimp only
  induction tasks generalizing j with
  | nil => rfl
  | cons task tasks ih =>
      rw [List.flatMap_cons, List.flatMap_cons, after_append, reportAll_append, ih, after_callsOf]

end Journal

/-- The plan for the tasks of one text is made from its comments, without a mismatch. -/
theorem Plan.ofPairs_of_correlate {kind : FileKind} {source : List Char}
    {events : List Yaml.Event} {pairs : List TaskPair}
    (h : correlate kind (Node.ofEvents events) (CommentTree.ofEvents source events).root? =
      some pairs) :
    ∃ comments commented, (CommentTree.ofEvents source events).root? = some comments ∧
      comments.taskBlocks kind = some commented ∧
      Plan.ofPairs pairs = ⟨Plan.ofTasks (Tree.flattenTasks commented), none⟩ := by
  obtain ⟨comments, hroot, hrest⟩ := Option.bind_eq_some_iff.mp h
  obtain ⟨blocks, hblocks, -⟩ := Option.bind_eq_some_iff.mp hrest
  have hsome : (CommentTree.ofEvents source events).root?.isSome = true := by rw [hroot]; rfl
  obtain ⟨root, hone, rfl⟩ := (documents_agree source events).2.mp hsome
  obtain ⟨comments', hroot', hsame⟩ := CommentTree.exists_root hone source
  cases hroot.symm.trans hroot'
  obtain ⟨commented, hcommented, hpairs, hagree⟩ := correlate_of_erase hsame hblocks
  rw [hroot, hpairs, Option.some_inj] at h
  exact ⟨comments, commented, hroot, hcommented, h ▸ Plan.ofPairs_zipLongest hagree⟩

/-- A text that is not YAML makes no calls. -/
theorem Document.calls_of_error {path : Path} {kind : Option FileKind} {text : String}
    {e : Yaml.Error} (h : ofText path kind text = .error e) : calls path kind text = [] := by
  rw [calls]
  cases hread : Yaml.Event.read text with
  | error e => rfl
  | ok events =>
      rw [ofText, hread] at h
      exact nomatch h

/-- The calls of a document leave the journal as its notices do. -/
theorem Document.after_calls {path : Path} {kind : Option FileKind} {text : String}
    {doc : Document} {notices : List Notice} (h : ofText path kind text = .ok (doc, notices))
    (j : Journal) : j.after (calls path kind text) = j.reportAll notices := by
  rw [ofText] at h
  rw [calls]
  cases hread : Yaml.Event.read text with
  | error e =>
      rw [hread] at h
      exact nomatch h
  | ok events =>
      rw [hread] at h
      cases h
      rw [noticesOfTrees, Journal.reportAll_append, Journal.after_append, Journal.after_callsOf,
        attachCalls, attachNotices]
      split
      · rw [Journal.after_callsOf]
      · cases hpairs : correlate (kind.getD (FileKind.detect path (Node.ofEvents events)))
            (Node.ofEvents events) (CommentTree.ofEvents text.toList events).root? with
        | none => rfl
        | some pairs =>
            obtain ⟨comments, commented, -, -, hplan⟩ := Plan.ofPairs_of_correlate hpairs
            dsimp only
            rw [hplan, Journal.after_planCalls]

/-- One step of a session: the request that runs alone. -/
theorem Request.run_ask (rules : List Rule) (request : Request) (j : Journal) :
    (request.ask rules).run j = request.perform rules j := by
  obtain ⟨hanswer, hafter⟩ := (request.makes_ask rules).run j
  cases request with
  | note tag => rfl
  | normalize tag file line =>
      rw [calls, Journal.after_cons, Journal.after_nil, Call.perform_normalize] at hafter
      exact Prod.ext hanswer hafter
  | marker text file line =>
      exact Prod.ext hanswer (hafter.trans (Journal.after_normalize ..))
  | lint file text =>
      refine Prod.ext hanswer (hafter.trans ?_)
      cases hread : Document.ofText file none text with
      | error e =>
          rw [calls, Document.calls_of_error hread]
          simp [perform, answer, hread, Journal.reportAll]
      | ok made =>
          rw [calls, Document.after_calls hread]
          simp [perform, answer, hread]

/-- **One session alone** is a session. -/
theorem Session.run_ask (rules : List Rule) (requests : List Request) (j : Journal) :
    (Session.ask rules requests).run j = Session.run rules j requests := by
  induction requests generalizing j with
  | nil => rfl
  | cons request requests ih =>
      rw [ask, List.mapM_cons, Inquiry.run_bind, Request.run_ask, ← ask, Inquiry.run_bind, ih,
        Session.run]
      rfl

end PlaybookLint
