import PlaybookLint.Proofs.Home
import PlaybookLint.Proofs.Inquiry

/-!
# Outdated identifiers are said once

Several sessions may share one journal, and their calls may come in any order. Still every outdated
identifier is said once at most, namely by the first call that asks for its name, unless the journal
has heard of it before. Reading a text calls for the names in every marker when it looks at the
lines, so that the calls for the lists, which come later, never have anything to say. What is
answered does not depend on what the journal holds.

## Main definitions

* `System` - sessions that share a journal, `System.Run` - what happens to them.
* `Announced` - no call for a list is the first one about its identifier.
* `Inquiry.UnderWay` - how far a computation has come.

## Main statements

* `Journal.said_perform`, `Journal.exists_said_after` - what calls say.
* `Document.announced_calls` - the calls for lists come after those for lines.
* `System.Invariant.step`, `System.Run.invariant` - what a step, and a run, preserves.
* `outdated_said_once` - an outdated identifier is said once, and answers do not depend on it.
-/

namespace PlaybookLint

/-! ### What calls say -/

/-- Whether the journal remembers the identifier of the call. -/
def Call.isNoted : Call → Bool
  | note _ => true
  | normalize _ tag _ _ => (Tag.current? tag).isSome

/-- A call has nothing to say, or one thing about its own identifier. -/
theorem Call.notices_eq_nil_or (c : Call) : c.notices = [] ∨
    c.notices.filterMap Notice.tag? = [c.tag] ∧ (Tag.current? c.tag).isSome = true := by
  cases c with
  | note tag => exact .inl rfl
  | normalize purpose tag file line =>
      rw [notices, Call.tag, Notice.ofTag?]
      cases Tag.current? tag with
      | none => exact .inl rfl
      | some current => exact .inr ⟨rfl, rfl⟩

theorem Call.isNoted_of_current {c : Call} (h : (Tag.current? c.tag).isSome = true) :
    c.isNoted = true := by
  cases c with
  | note tag => rfl
  | normalize purpose tag file line => exact h

namespace Journal

theorem said_perform (c : Call) (j : Journal) :
    (c.perform j).2.said = j.said ++ if c.tag ∈ j.noted then [] else c.notices := by
  cases c with
  | note tag =>
      by_cases hnoted : tag ∈ j.noted <;> simp [Call.perform, Call.notices, note, hnoted]
  | normalize purpose tag file line =>
      rw [Call.perform_normalize, Call.notices, Call.tag, Notice.ofTag?]
      cases Tag.current? tag with
      | none => simp [reportAll]
      | some current =>
          by_cases hnoted : tag ∈ j.noted <;>
            simp [reportAll, report, Notice.tag?, note, say, hnoted]

theorem mem_noted_perform {x : String} (c : Call) (j : Journal) :
    x ∈ (c.perform j).2.noted ↔ x ∈ j.noted ∨ c.isNoted = true ∧ c.tag = x := by
  cases c with
  | note tag =>
      by_cases hnoted : tag ∈ j.noted
      · have hold : tag = x → x ∈ j.noted := fun h => h ▸ hnoted
        simpa [Call.perform, Call.isNoted, Call.tag, note, hnoted] using hold
      · simp [Call.perform, Call.isNoted, Call.tag, note, hnoted, or_comm, eq_comm]
  | normalize purpose tag file line =>
      rw [Call.perform_normalize, Call.isNoted, Call.tag, Notice.ofTag?]
      cases Tag.current? tag with
      | none => simp [reportAll]
      | some current =>
          by_cases hnoted : tag ∈ j.noted
          · have hold : tag = x → x ∈ j.noted := fun h => h ▸ hnoted
            simpa [reportAll, report, Notice.tag?, note, hnoted] using hold
          · simp [reportAll, report, Notice.tag?, note, say, hnoted, or_comm, eq_comm]

/-- The journal remembers what it remembered and what calls have brought up. -/
theorem mem_noted_after {x : String} (calls : List Call) (j : Journal) :
    x ∈ (j.after calls).noted ↔ x ∈ j.noted ∨ ∃ c ∈ calls, c.isNoted = true ∧ c.tag = x := by
  induction calls generalizing j with
  | nil => simp
  | cons c calls ih => rw [after_cons, ih, mem_noted_perform, List.exists_mem_cons_iff, or_assoc]

/-- **What a call says**: its notice, if the identifier has not come up before. -/
theorem said_after_concat (before : List Call) (c : Call) (j : Journal) :
    (j.after (before ++ [c])).said = (j.after before).said ++
      if c.tag ∈ j.noted ∨ ∃ earlier ∈ before, earlier.tag = c.tag then [] else c.notices := by
  rw [after_append, after_cons, after_nil, said_perform]
  obtain hnothing | ⟨-, houtdated⟩ := c.notices_eq_nil_or
  · rw [hnothing, ite_self, ite_self]
  · have hnoted : c.tag ∈ (j.after before).noted ↔
        c.tag ∈ j.noted ∨ ∃ earlier ∈ before, earlier.tag = c.tag := by
      rw [mem_noted_after]
      refine or_congr_right (exists_congr fun earlier => and_congr_right fun _ => ?_)
      -- a call about an outdated identifier always has it remembered
      exact and_iff_right_of_imp fun htag => Call.isNoted_of_current (htag ▸ houtdated)
    simp only [hnoted]

/-- **No identifier is said twice**, and none that the journal has heard of before. -/
theorem exists_said_after (calls : List Call) (j : Journal) :
    ∃ said, (j.after calls).said = j.said ++ said ∧ (said.filterMap Notice.tag?).Nodup ∧
      ∀ tag ∈ said.filterMap Notice.tag?, tag ∉ j.noted := by
  induction calls generalizing j with
  | nil => exact ⟨[], (List.append_nil _).symm, .nil, nofun⟩
  | cons c calls ih =>
      obtain ⟨said, hsaid, hnodup, hnews⟩ := ih (c.perform j).2
      simp only [mem_noted_perform, not_or] at hnews
      rw [said_perform, List.append_assoc] at hsaid
      refine ⟨_, hsaid, ?_⟩
      have hlater : ∀ tag ∈ said.filterMap Notice.tag?, tag ∉ j.noted :=
        fun tag htag => (hnews tag htag).1
      by_cases hnoted : c.tag ∈ j.noted
      · rw [if_pos hnoted, List.nil_append]
        exact ⟨hnodup, hlater⟩
      · rw [if_neg hnoted, List.filterMap_append]
        obtain hnothing | ⟨htag, houtdated⟩ := c.notices_eq_nil_or
        · rw [hnothing]
          exact ⟨hnodup, hlater⟩
        · rw [htag, List.singleton_append, List.nodup_cons, List.forall_mem_cons]
          -- what is said later is news to a journal that remembers this identifier
          have hfresh : c.tag ∉ said.filterMap Notice.tag? := fun hsaid =>
            (hnews c.tag hsaid).2 ⟨Call.isNoted_of_current houtdated, rfl⟩
          exact ⟨⟨hfresh, hnodup⟩, hnoted, hlater⟩

end Journal

/-! ### The calls for lists come late -/

/-- Every call for a list has an earlier call about its identifier. -/
def Announced (calls : List Call) : Prop :=
  ∀ before c later, calls = before ++ c :: later → c.isForList = true →
    ∃ earlier ∈ before, earlier.tag = c.tag

/-- An element of two lists one after the other stands in the first or in the second one. -/
theorem split_append {xs ys before later : List α} {x : α}
    (h : xs ++ ys = before ++ x :: later) :
    (∃ rest, xs = before ++ x :: rest) ∨
      ∃ front, before = xs ++ front ∧ ys = front ++ x :: later := by
  obtain ⟨front, hbefore, hys⟩ | ⟨rest, hxs, hrest⟩ := List.append_eq_append_iff.mp h
  · exact .inr ⟨front, hbefore, hys⟩
  · cases rest with
    | nil => exact .inr ⟨[], by simpa using hxs.symm, hrest.symm⟩
    | cons y rest =>
        cases hrest
        exact .inl ⟨rest, hxs⟩

theorem announced_nil : Announced [] := by
  intro before c later h
  exact absurd h.symm (by simp)

theorem Announced.append {calls more : List Call} (hcalls : Announced calls)
    (hmore : ∀ before c later, more = before ++ c :: later → c.isForList = true →
      ∃ earlier ∈ calls ++ before, earlier.tag = c.tag) : Announced (calls ++ more) := by
  intro before c later h hlist
  obtain ⟨rest, hrest⟩ | ⟨front, rfl, hfront⟩ := split_append h
  · exact hcalls before c rest hrest hlist
  · exact hmore front c later hfront hlist

/-- Calls that are not for a list need no announcement. -/
theorem announced_of_forall {calls : List Call} (h : ∀ c ∈ calls, c.isForList = false) :
    Announced calls := by
  rintro before c later rfl hlist
  have hnot := h c (List.mem_append_right before List.mem_cons_self)
  exact absurd (hnot.symm.trans hlist) Bool.false_ne_true

theorem mem_callsOf {purpose : Purpose} {file : Path} {comments : List Comment} {c : Call} :
    c ∈ callsOf purpose file comments ↔ ∃ comment ∈ comments, comment.isMarker = true ∧
      ∃ tag ∈ comment.names, .normalize purpose tag file comment.line = c := by
  simp only [callsOf, Comment.calls, List.mem_flatMap, List.mem_filter, List.mem_map, and_assoc]

/-- Markers that are read for a list have been read for the lines, if they are among those. -/
theorem exists_call_lines {file : Path} {comments some : List Comment}
    (hsub : ∀ comment ∈ some, comment ∈ comments) {c : Call} (hc : c ∈ callsOf .list file some) :
    ∃ earlier ∈ callsOf .lines file comments, earlier.tag = c.tag := by
  obtain ⟨comment, hcomment, hmarker, tag, htag, rfl⟩ := mem_callsOf.mp hc
  exact ⟨_, mem_callsOf.mpr ⟨comment, hsub comment hcomment, hmarker, tag, htag, rfl⟩, rfl⟩

/-- A file with task lists is a sequence. -/
theorem Tree.isCollection_of_taskBlocks {kind : FileKind} {root : Tree α}
    {blocks : List (FlatTask α)} (h : root.taskBlocks kind = some blocks) :
    root.isCollection = true := by
  cases root with
  | sequence line note items => rfl
  | mapping line note entries => cases kind <;> exact nomatch h
  | scalar line note value => cases kind <;> exact nomatch h

/-- A single root that is a collection holds the comments that count. -/
theorem CommentTree.comments_eq_of_root {tree : CommentTree} {root : CommentNode}
    (hroot : tree.root? = some root) (hcollection : root.isCollection = true) :
    tree.comments = root.comments := by
  rw [CommentTree.comments, collections, root?_eq_some.mp hroot,
    List.filter_cons_of_pos hcollection, List.filter_nil, List.flatMap_singleton]

/-- What is read for the lists of a text has been read for its lines. -/
theorem exists_call_of_mem_attachCalls {file : Path} {kind : FileKind} {source : List Char}
    {events : List Yaml.Event} {c : Call}
    (hc : c ∈ attachCalls file kind (CommentTree.ofEvents source events) (Node.ofEvents events)) :
    ∃ earlier ∈ callsOf .lines file (CommentTree.ofEvents source events).comments,
      earlier.tag = c.tag := by
  rw [attachCalls] at hc
  split at hc
  · exact exists_call_lines (fun _ h => h) hc
  · cases hpairs : correlate kind (Node.ofEvents events)
        (CommentTree.ofEvents source events).root? with
    | none =>
        rw [hpairs] at hc
        cases hc
    | some pairs =>
        obtain ⟨comments, commented, hroot, hcommented, hplan⟩ := Plan.ofPairs_of_correlate hpairs
        rw [hpairs] at hc
        dsimp only at hc
        rw [hplan, Plan.calls, List.mem_flatMap] at hc
        obtain ⟨planned, hplanned, hc⟩ := hc
        obtain ⟨task, htask, -, rfl⟩ := Plan.mem_ofTasks.mp hplanned
        rw [CommentTree.comments_eq_of_root hroot (Tree.isCollection_of_taskBlocks hcommented)]
        have hat := Tree.at?_of_mem_flattenTasks hcommented task htask
        exact exists_call_lines (Tree.comments_subset_of_at? hat) hc

/-- **The calls for lists are announced** by those for the lines of the same text. -/
theorem Document.announced_calls (path : Path) (kind : Option FileKind) (text : String) :
    Announced (calls path kind text) := by
  rw [calls]
  cases Yaml.Event.read text with
  | error e => exact announced_nil
  | ok events =>
      refine Announced.append (announced_of_forall fun c hc => ?_) fun before c later h _ => ?_
      · obtain ⟨comment, -, -, tag, -, rfl⟩ := mem_callsOf.mp hc
        rfl
      · have hmem := h ▸ List.mem_append_right before (List.mem_cons_self (l := later))
        obtain ⟨earlier, hearlier, htag⟩ := exists_call_of_mem_attachCalls hmem
        exact ⟨earlier, List.mem_append_left before hearlier, htag⟩

theorem Request.announced_calls (request : Request) : Announced request.calls := by
  cases request with
  | note tag => exact announced_of_forall (by simp [calls, Call.isForList])
  | normalize tag file line => exact announced_of_forall (by simp [calls, Call.isForList])
  | marker text file line => exact announced_of_forall (by simp [calls, Call.isForList])
  | lint file text => exact Document.announced_calls file none text

theorem Session.announced_calls (requests : List Request) : Announced (calls requests) := by
  induction requests with
  | nil => exact announced_nil
  | cons request requests ih =>
      refine request.announced_calls.append fun before c later h hlist => ?_
      obtain ⟨earlier, hearlier, htag⟩ := ih before c later h hlist
      exact ⟨earlier, List.mem_append_right _ hearlier, htag⟩

/-! ### Sessions that share a journal -/

/-- How far a computation has come: of the calls that it makes it has made the first ones, in order
among the calls of a history, and makes the others from now on. -/
def Inquiry.UnderWay (post : α → Prop) (calls history : List Call) (p : Inquiry α) : Prop :=
  ∃ made rest, calls = made ++ rest ∧ made.Sublist history ∧ p.Makes post rest

/-- Some computations and the journal that they share. -/
structure System (α : Type) where
  journal : Journal
  threads : List (Inquiry α)

namespace System

/-- One of the computations makes its next call. -/
def Step (s : System α) (c : Call) (s' : System α) : Prop :=
  ∃ (i : Nat) (next : c.Answer → Inquiry α), s.threads[i]? = some (.call c next) ∧
    s' = ⟨(c.perform s.journal).2, s.threads.set i (next (c.perform s.journal).1)⟩

/-- The calls of a history are made, one after the other. -/
inductive Run (init : System α) : List Call → System α → Prop where
  | nil : Run init [] init
  | snoc {history : List Call} {s s' : System α} {c : Call} (before : Run init history s)
    (last : Step s c s') : Run init (history ++ [c]) s'

/-- What holds of a system that began with a journal, when the calls of a history have been made. -/
structure Invariant (journal : Journal) (calls : Nat → List Call) (post : Nat → α → Prop)
    (history : List Call) (s : System α) : Prop where
  journal : s.journal = journal.after history
  threads : ∀ (i : Nat) (p : Inquiry α), s.threads[i]? = some p →
    p.UnderWay (post i) (calls i) history
  announced : Announced history

variable {journal : Journal} {calls : Nat → List Call} {post : Nat → α → Prop}
variable {history : List Call} {s s' : System α} {c : Call}

/-- **One call.** -/
theorem Invariant.step (hs : s.Invariant journal calls post history)
    (hcalls : ∀ i, Announced (calls i)) (h : Step s c s') :
    s'.Invariant journal calls post (history ++ [c]) := by
  obtain ⟨i, next, hthread, rfl⟩ := h
  obtain ⟨made, rest, hsplit, hmade, rest, rfl, hnext⟩ := hs.threads i _ hthread
  refine ⟨?journal, fun k p hp => ?threads, hs.announced.append fun before c' later hc' hlist => ?_⟩
  case journal => rw [hs.journal, Journal.after_append, Journal.after_cons, Journal.after_nil]
  case threads =>
    by_cases hk : i = k
    · subst hk
      have hi : i < s.threads.length := (List.getElem?_eq_some_iff.mp hthread).1
      rw [List.getElem?_set_self hi] at hp
      cases hp
      refine ⟨made ++ [c], rest, by simp [hsplit], hmade.append_right [c], ?_⟩
      exact hnext _ (c.gives_perform s.journal)
    · rw [List.getElem?_set_ne hk] at hp
      obtain ⟨made, rest, hsplit, hmade, hmakes⟩ := hs.threads k p hp
      exact ⟨made, rest, hsplit, hmade.trans (List.sublist_append_left history [c]), hmakes⟩
  -- the thread has announced the call, and what it has made is part of the history
  obtain ⟨rfl, rfl, rfl⟩ : before = [] ∧ c = c' ∧ later = [] := by
    cases before with
    | nil => simpa [eq_comm] using hc'
    | cons first before => simp at hc'
  obtain ⟨earlier, hearlier, htag⟩ := hcalls i made c rest hsplit hlist
  exact ⟨earlier, List.mem_append_left [] (hmade.subset hearlier), htag⟩

/-- **A whole run.** -/
theorem Run.invariant {init : System α} (calls : Nat → List Call) (post : Nat → α → Prop)
    (h : Run init history s) (hcalls : ∀ i, Announced (calls i))
    (hinit : ∀ (i : Nat) (p : Inquiry α), init.threads[i]? = some p → p.Makes (post i) (calls i)) :
    s.Invariant init.journal calls post history := by
  induction h with
  | nil =>
      refine ⟨rfl, fun i p hp => ?_, announced_nil⟩
      exact ⟨[], calls i, rfl, .refl _, hinit i p hp⟩
  | snoc before last ih => exact ih.step hcalls last

theorem Run.length_threads {init : System α} (h : Run init history s) :
    s.threads.length = init.threads.length := by
  induction h with
  | nil => rfl
  | snoc before last ih =>
      obtain ⟨i, next, -, rfl⟩ := last
      exact List.length_set.trans ih

end System

theorem Inquiry.UnderWay.of_done {post : α → Prop} {calls history : List Call} {a : α}
    (h : (done a).UnderWay post calls history) : post a := by
  obtain ⟨made, rest, -, -, -, ha⟩ := h
  exact ha

/-- **Outdated identifiers are said once, and what is answered does not depend on it.**  Take any
journal, any sessions that share it, and any order in which their calls are made, for as long as one
likes.

* The journal is the one that the calls leave. No outdated identifier has been said twice, and none
  that the journal had heard of before.
* Each call says exactly its notice, unless the identifier had been heard of or an earlier call was
  about it. So an outdated identifier is said by the first call for its name, if it has not been
  noted before.
* A call for a list, of a task or of a whole file, says nothing.
* Every session makes the calls that can be read off its requests, in order, and when it ends it has
  the answers that do not depend on the journal.
* A text is made into the same document, whatever the journal answers.
* A session that runs alone is a session as it is defined. -/
theorem outdated_said_once (rules : List Rule) (journal : Journal) (sessions : List (List Request))
    {history : List Call} {s : System (List Response)}
    (h : System.Run ⟨journal, sessions.map (Session.ask rules)⟩ history s) :
    s.journal = journal.after history ∧
    (∃ said, s.journal.said = journal.said ++ said ∧ (said.filterMap Notice.tag?).Nodup ∧
      ∀ tag ∈ said.filterMap Notice.tag?, tag ∉ journal.noted) ∧
    (∀ before c later, history = before ++ c :: later →
      (journal.after (before ++ [c])).said = (journal.after before).said ++
        (if c.tag ∈ journal.noted ∨ ∃ earlier ∈ before, earlier.tag = c.tag then []
          else c.notices) ∧
      (c.isForList = true →
        (journal.after (before ++ [c])).said = (journal.after before).said)) ∧
    (∀ (i : Nat) (thread : Inquiry (List Response)), s.threads[i]? = some thread →
      ∃ requests, sessions[i]? = some requests ∧
        thread.UnderWay (List.Forall₂ (Request.IsAnswered rules) requests)
          (Session.calls requests) history ∧
        ∀ responses, thread = .done responses →
          List.Forall₂ (Request.IsAnswered rules) requests responses) ∧
    (∀ path kind text, (Document.ask path kind text).Makes
      (· = (Document.ofText path kind text).map Prod.fst) (Document.calls path kind text)) ∧
    ∀ requests, (Session.ask rules requests).run journal = Session.run rules journal requests := by
  have hinit : ∀ (i : Nat) (thread : Inquiry (List Response)),
      (sessions.map (Session.ask rules))[i]? = some thread →
        thread.Makes (List.Forall₂ (Request.IsAnswered rules) (sessions[i]?.getD []))
          (Session.calls (sessions[i]?.getD [])) := by
    intro i thread hthread
    rw [List.getElem?_map, Option.map_eq_some_iff] at hthread
    obtain ⟨requests, hrequests, rfl⟩ := hthread
    rw [hrequests]
    exact Session.makes_ask rules requests
  obtain ⟨hjournal, hthreads, hannounced⟩ :=
    h.invariant _ _ (fun i => Session.announced_calls _) hinit
  refine ⟨hjournal, hjournal ▸ Journal.exists_said_after history journal, ?calls, ?threads,
    Document.makes_ask, fun requests => Session.run_ask rules requests journal⟩
  case calls =>
    rintro before c later rfl
    have hsaid := Journal.said_after_concat before c journal
    refine ⟨hsaid, fun hlist => ?_⟩
    have hearlier := hannounced before c later rfl hlist
    rw [hsaid, if_pos (.inr hearlier), List.append_nil]
  case threads =>
    intro i thread hthread
    have hi : i < sessions.length := by
      have hlt := (List.getElem?_eq_some_iff.mp hthread).1
      rwa [h.length_threads, List.length_map] at hlt
    have hunder := hthreads i thread hthread
    rw [List.getElem?_eq_getElem hi, Option.getD_some] at hunder
    refine ⟨sessions[i], List.getElem?_eq_getElem hi, hunder, ?_⟩
    rintro responses rfl
    exact hunder.of_done

/-- The theorem applies to two sessions that each ask for the name of the same outdated identifier,
the second one first: only that one is told of it. -/
theorem outdated_said_once_swapped :
    let first := [Request.normalize "403" ⟨"a.yml"⟩ 1]
    let second := [Request.normalize "403" ⟨"b.yml"⟩ 2]
    ∃ s, System.Run ⟨.empty, [first, second].map (Session.ask [])⟩
        [.normalize .itself "403" ⟨"b.yml"⟩ 2, .normalize .itself "403" ⟨"a.yml"⟩ 1] s ∧
      s.journal.said = [.outdated ⟨"b.yml"⟩ 2 "403" "package-latest"] ∧
      s.threads[0]? = some (.done [.name "package-latest"]) ∧
      s.journal = Journal.empty.after
        [.normalize .itself "403" ⟨"b.yml"⟩ 2, .normalize .itself "403" ⟨"a.yml"⟩ 1] := by
  intro first second
  have hrun : System.Run ⟨.empty, [first, second].map (Session.ask [])⟩ ([] ++ [_] ++ [_]) _ :=
    .snoc (.snoc .nil ⟨1, _, rfl, rfl⟩) ⟨0, _, rfl, rfl⟩
  obtain ⟨hjournal, -⟩ := outdated_said_once [] .empty [first, second] hrun
  exact ⟨_, hrun, by decide +kernel, rfl, hjournal⟩

end PlaybookLint
