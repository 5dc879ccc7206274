import PlaybookLint.Lint
import PlaybookLint.Text.Basic

/-!
# Explaining rules

What there is to say about rules to someone who asks, also if an identifier is mistyped. How similar
two texts are, between zero and one, is their Jaro similarity in the variant by Winkler that favours
texts with a common beginning.

## Main definitions

* `matchFrom` - pairs off the characters that two texts have in common.
* `jaro`, `jaroWinkler` - the Jaro similarity and its variant.
* `Explain.listing` - all rules.
* `Explain.explanation?` - one rule.
* `Explain.suggestion?` - the identifier that a mistyped one may stand for.
-/

namespace PlaybookLint.Text

/-! ## Similarity of texts -/

/-- Takes the first free character between two places that equals `c`: the characters with that one
taken, or `none` if there is no such character. Places are counted from `index`. -/
def take? (c : Char) (first bound : Nat) :
    (index : Nat) → List (Char × Bool) → Option (List (Char × Bool))
  | _, [] => none
  | index, (d, taken) :: rest =>
    if bound ≤ index then none
    else if first ≤ index && c = d && !taken then some ((d, true) :: rest)
    else (take? c first bound (index + 1) rest).map ((d, taken) :: ·)

/-- Pairs off the characters of two texts, each with the first free equal one at most `range` places
away: the characters of the first text that have a partner, and the second text with the partners
taken. Places of the first text are counted from `index`. -/
def matchFrom (range : Nat) :
    (index : Nat) → List Char → List (Char × Bool) → List Char × List (Char × Bool)
  | _, [], second => ([], second)
  | index, c :: cs, second =>
    match take? c (index - range) (index + range + 1) 0 second with
    | some second =>
      let (common, second) := matchFrom range (index + 1) cs second
      (c :: common, second)
    | none => matchFrom range (index + 1) cs second

/-- In how many places two lists differ. -/
def differences (a b : List Char) : Nat :=
  (a.zip b).countP fun (c, d) => c ≠ d

/-- The Jaro similarity of two texts. -/
def jaro (a b : List Char) : Float :=
  if a.isEmpty && b.isEmpty then 1.0
  else
    let range := max a.length b.length / 2 - 1
    let (common, second) := matchFrom range 0 a (b.map (·, false))
    let partners := (second.filter Prod.snd).map Prod.fst
    let n := common.length
    if n = 0 then 0.0
    else
      let swaps := differences common partners / 2
      (n.toFloat / a.length.toFloat + n.toFloat / b.length.toFloat +
        (n - swaps).toFloat / n.toFloat) / 3.0

/-- How many characters two texts have in common at their beginnings. -/
def commonStart : List Char → List Char → Nat
  | c :: cs, d :: ds => if c = d then commonStart cs ds + 1 else 0
  | _, _ => 0

/-- The Jaro similarity, raised by a common beginning of up to four characters if it is above 0.7.
-/
def jaroWinkler (a b : List Char) : Float :=
  let similarity := jaro a b
  if similarity > 0.7 then
    similarity + 0.1 * (min 4 (commonStart a b)).toFloat * (1.0 - similarity)
  else similarity

end PlaybookLint.Text

namespace PlaybookLint.Explain

/-! ## Explanations -/

/-- All rules, each with its description. -/
def listing : String :=
  "Available rules:\n\n" ++
    String.join (Rule.catalog.map fun info =>
      "  " ++ Text.padRight 18 info.id ++ " " ++ info.description ++ "\n") ++
    "\nRun `playlint explain <rule>` for details."

/-- The name of the rule that an identifier belongs to: what stands before a bracket. -/
def ruleName (identifier : String) : String :=
  String.ofList (identifier.toList.takeWhile (· ≠ '['))

/-- The rule that an identifier belongs to; it may be outdated. -/
def resolve? (query : String) : Option RuleInfo :=
  Rule.findInfo? (ruleName (Tag.normalize query))

/-- The lines about a rule. -/
def ruleLines (info : RuleInfo) : List String :=
  [info.id ++ ": " ++ info.description, "", "Severity: " ++ info.severity.name] ++
    (if info.tags.isEmpty then [] else ["Tags: " ++ ", ".intercalate info.tags]) ++
    (if info.checks.isEmpty then []
      else
        ["", "Sub-tags:"] ++ info.checks.map fun (tag, description) =>
          "  " ++ Text.padRight 28 tag ++ " " ++ description) ++
    ["", "Silence it on one line with `# noqa: " ++ info.id ++ "`, or for a whole task by",
      "placing the comment anywhere inside the task."]

/-- The line about an identifier that has another name now, if it has. -/
def renamingLines (query : String) : List String :=
  match Tag.current? query with
  | some current => ["`" ++ query ++ "` is an outdated name for `" ++ current ++ "`.", ""]
  | none => []

/-- What there is to say about the rule that an identifier belongs to. -/
def explanation? (query : String) : Option String :=
  (resolve? query).map fun info => "\n".intercalate (renamingLines query ++ ruleLines info)

/-- The identifiers that can be suggested: the names of the rules and the tags of their checks. -/
def candidates : List String :=
  Rule.catalog.flatMap fun info => info.id :: info.checks.map Prod.fst

/-- How similar a suggestion has to be. -/
def threshold : Float := 0.8

/-- The later of two scored candidates unless it scores less. -/
def better (best : Option (Float × String)) (candidate : Float × String) :
    Option (Float × String) :=
  match best with
  | some (score, _) => if candidate.1 < score then best else some candidate
  | none => some candidate

/-- The identifier that a mistyped one is most similar to, if it is similar enough. -/
def suggestion? (query : String) : Option String :=
  let scored := candidates.map fun c => (Text.jaroWinkler query.toList c.toList, c)
  ((scored.filter fun s => s.1 ≥ threshold).foldl better none).map Prod.snd

end PlaybookLint.Explain
