import PlaybookLint.Path

/-!
# Findings

What a rule has to say about a line of a file. Findings are shown by file, line, tag and message,
and two that agree in all of these are shown as one.

## Main definitions

* `Severity`, `Finding` - what a rule has to say.
* `Finding.compare` - the order.
* `Finding.arrange` - the findings of a list in order, none twice.
-/

namespace PlaybookLint

/-- How serious a finding is. -/
inductive Severity where
  | info
  | warning
  | error
  deriving Repr, DecidableEq, Inhabited

namespace Severity

/-- The name of a severity. -/
def name : Severity → String
  | .info => "info"
  | .warning => "warning"
  | .error => "error"

/-- All severities, the least one first. -/
def all : List Severity := [.info, .warning, .error]

/-- The severity with a name. -/
def ofName? (name : String) : Option Severity :=
  all.find? fun s => s.name = name

/-- The place of a severity among all. -/
def rank : Severity → Nat
  | .info => 0
  | .warning => 1
  | .error => 2

/-- Whether a severity is at least as serious as a threshold. -/
def atLeast (threshold s : Severity) : Bool :=
  decide (threshold.rank ≤ s.rank)

end Severity

/-- What a rule has to say about a line of a file. -/
structure Finding where
  file : Path
  line : Nat
  /-- The name of the rule. -/
  rule : String
  /-- The name of the rule, or of one of its checks, as `rule[check]`. -/
  tag : String
  severity : Severity
  message : String
  deriving Repr, DecidableEq, Inhabited

namespace Finding

/-- Whether a list of identifiers names the rule or the tag of the finding. -/
def isListed (f : Finding) (identifiers : List String) : Bool :=
  identifiers.any fun s => s = f.rule || s = f.tag

end Finding

end PlaybookLint

namespace PlaybookLint.Finding

/-! ## The order of findings -/

/-- The order of findings: by file, line, tag and message. -/
def compare (f g : Finding) : Ordering :=
  (Path.compare f.file g.file).then
    ((Ord.compare f.line g.line).then
      ((Ord.compare f.tag g.tag).then (Ord.compare f.message g.message)))

/-- Findings in order. Those that the order does not tell apart stay as they are. -/
def sort (found : List Finding) : List Finding :=
  found.mergeSort fun f g => (f.compare g).isLE

theorem sort_perm (found : List Finding) : (sort found).Perm found :=
  List.mergeSort_perm found _

/-- Findings without those that the order does not tell apart from the one before. -/
def dedupFrom : (previous : Option Finding) → List Finding → List Finding
  | _, [] => []
  | previous, f :: rest =>
    if previous.any fun p => p.compare f = .eq then dedupFrom previous rest
    else f :: dedupFrom (some f) rest

theorem dedupFrom_sublist (previous : Option Finding) (found : List Finding) :
    (dedupFrom previous found).Sublist found := by
  fun_induction dedupFrom previous found with
  | case1 => exact .slnil
  | case2 _ f rest _ ih => exact ih.cons f
  | case3 _ f rest _ ih => exact ih.cons_cons f

/-- The findings of a list in order, none twice. -/
def arrange (found : List Finding) : List Finding :=
  dedupFrom none (sort found)

theorem mem_of_mem_arrange {f : Finding} {found : List Finding} (h : f ∈ arrange found) :
    f ∈ found :=
  (sort_perm found).mem_iff.1 ((dedupFrom_sublist none _).subset h)

end PlaybookLint.Finding
