import PlaybookLint.Yaml.Basic
import PlaybookLint.Yaml.Token.Lexer

/-!
# From tokens to events

`Event.ofTokens` reads the tokens of a stream by the grammar of YAML. `Event.read` does the same for
a text.

## Main definitions

* `Expectation` - what the grammar expects next.
* `Grammar` - the tokens still to be read, the expectations, and the anchors and tag handles in
  force.
* `Grammar.next` - the next event.

## Design notes

A node that is missing is an empty plain scalar. It shows at the `:` or `-` that it should follow;
if it has an anchor or a tag, or is the value of a `?` without a `:`, it shows at the token that
comes instead.
-/

namespace PlaybookLint.Yaml

/-- What the grammar expects next. -/
inductive Expectation where
  | stream
  /-- A document, which needs a `---` only if `explicit`. -/
  | document (explicit : Bool)
  /-- The node of a document after its `---`. -/
  | content
  | documentEnd
  /-- A node in block context. -/
  | node
  | blockEntry (first : Bool)
  /-- An entry of a sequence that is not indented further than the key before it. -/
  | indentlessEntry
  | blockKey (first : Bool)
  | blockValue
  | flowEntry (first : Bool)
  /-- The key, the value and the end of a single pair in a flow sequence. -/
  | pairKey
  | pairValue
  | pairEnd
  | flowKey (first : Bool)
  | flowValue
  /-- The missing value of a flow key without `:`. -/
  | noFlowValue
  | nothing
  deriving Repr, DecidableEq, Inhabited

/-- A stream that has been read in part. -/
structure Grammar where
  tokens : List Token
  /-- What is expected at once. -/
  expected : Expectation
  /-- What is expected afterwards, soonest first. -/
  later : List Expectation
  /-- Anchors of the document, latest first. -/
  anchors : List (String × Nat)
  /-- Number of the next anchor. -/
  nextAnchor : Nat
  /-- Tag handles that directives have declared for the document. -/
  handles : List String
  deriving Inhabited

namespace Grammar

/-- The next token. A list of tokens ends with the end of the stream, which is never passed before
its event. -/
def peek (g : Grammar) : Token :=
  g.tokens.head?.getD ⟨.streamEnd, Mark.start⟩

/-- Passes the next token. -/
def skip (g : Grammar) : Grammar :=
  { g with tokens := g.tokens.drop 1 }

/-- Expects `e` next. -/
def expect (g : Grammar) (e : Expectation) : Grammar :=
  { g with expected := e }

/-- Expects `e` after what is read next. -/
def expectLater (g : Grammar) (e : Expectation) : Grammar :=
  { g with later := e :: g.later }

/-- Goes on with what is expected afterwards. -/
def pop (g : Grammar) : Grammar :=
  match g.later with
  | [] => { g with expected := .nothing }
  | e :: es => { g with expected := e, later := es }

/-- Stops reading at the next token. -/
def fail (g : Grammar) (problem : Problem := .unexpectedToken) : Except Error α :=
  .error ⟨g.peek.mark, problem⟩

/-- An event and what remains. -/
abbrev Step := Except Error (Event × Grammar)

/-- Gives an event. -/
def give (g : Grammar) (kind : EventKind) (mark : Mark) : Step :=
  .ok (⟨kind, mark⟩, g)

/-- Gives the scalar that stands for a missing node. -/
def giveEmpty (g : Grammar) (mark : Mark) (anchor : Nat := 0) : Step :=
  g.give (.scalar "" .plain anchor) mark

/-- The anchor and the tag before a node, in any order. -/
structure Properties where
  anchor : Nat
  tagged : Bool

/-- Numbers an anchor. -/
def register (g : Grammar) (name : String) : Nat × Grammar :=
  (g.nextAnchor, { g with
    anchors := (name, g.nextAnchor) :: g.anchors
    nextAnchor := g.nextAnchor + 1 })

/-- Checks that a tag uses no handle that should be declared and is not. -/
def checkHandle (g : Grammar) (handle : String) (mark : Mark) : Except Error Unit :=
  if handle = "!!" || g.handles.contains handle || !isClosedHandle handle then .ok ()
  else .error ⟨mark, .undeclaredTagHandle handle⟩

/-- Reads the properties before a node. -/
def properties (g : Grammar) : Except Error (Properties × Grammar) := do
  let mark := g.peek.mark
  match g.peek.kind with
  | .anchor name =>
    let (anchor, g) := g.skip.register name
    match g.peek.kind with
    | .tag handle =>
      g.checkHandle handle mark
      return (⟨anchor, true⟩, g.skip)
    | _ => return (⟨anchor, false⟩, g)
  | .tag handle =>
    g.checkHandle handle mark
    let g := g.skip
    match g.peek.kind with
    | .anchor name =>
      let (anchor, g) := g.skip.register name
      return (⟨anchor, true⟩, g)
    | _ => return (⟨0, true⟩, g)
  | _ => return (⟨0, false⟩, g)

/-- Reads a node, or the beginning of one that is a collection. -/
def node (g : Grammar) (inBlock indentless : Bool) : Step := do
  match g.peek.kind with
  | .alias name =>
    match g.anchors.lookup name with
    | some anchor => g.pop.skip.give (.alias anchor) g.peek.mark
    | none => g.fail (.unknownAnchor name)
  | _ =>
    let (props, g) ← g.properties
    let mark := g.peek.mark
    match g.peek.kind with
    | .scalar text style => g.pop.skip.give (.scalar text style props.anchor) mark
    | .flowSequenceStart => (g.expect (.flowEntry true)).give (.sequenceStart props.anchor) mark
    | .flowMappingStart => (g.expect (.flowKey true)).give (.mappingStart props.anchor) mark
    | kind =>
      if kind = .blockEntry && indentless then
        (g.expect .indentlessEntry).give (.sequenceStart props.anchor) mark
      else if kind = .blockSequenceStart && inBlock then
        (g.expect (.blockEntry true)).give (.sequenceStart props.anchor) mark
      else if kind = .blockMappingStart && inBlock then
        (g.expect (.blockKey true)).give (.mappingStart props.anchor) mark
      else if props.tagged || props.anchor > 0 then
        g.pop.giveEmpty mark props.anchor
      else
        g.fail

/-- Reads the directives before a document: the handles of the last one are in force. -/
def directives : (versionSeen : Bool) → List Token → Grammar → Except Error Grammar
  | versionSeen, ⟨.versionDirective, mark⟩ :: ts, g =>
    if versionSeen then .error ⟨mark, .badDirective⟩
    else directives true ts { g with tokens := ts, handles := [] }
  | versionSeen, ⟨.tagDirective handle, _⟩ :: ts, g =>
    directives versionSeen ts { g with tokens := ts, handles := [handle] }
  | _, _, g => .ok g

/-- Reads the `---` of a document. -/
def explicitDocument (g : Grammar) : Step := do
  let g ← directives false g.tokens g
  match g.peek.kind with
  | .documentStart =>
    ((g.expect .content).expectLater .documentEnd).skip.give .documentStart g.peek.mark
  | _ => g.fail

/-- Reads the beginning of a document, or the end of the stream. Anchors end with their document. -/
def document (g : Grammar) (explicit : Bool) : Step :=
  let g := { g with
    tokens := g.tokens.dropWhile fun t => t.kind == TokenKind.documentEnd
    anchors := [] }
  match g.peek.kind with
  | .streamEnd => (g.expect .nothing).give .streamEnd g.peek.mark
  | .versionDirective | .tagDirective _ | .documentStart => g.explicitDocument
  | _ =>
    if explicit then g.explicitDocument
    else ((g.expect .node).expectLater .documentEnd).give .documentStart g.peek.mark

/-- Reads the node of a document after its `---`. -/
def content (g : Grammar) : Step :=
  match g.peek.kind with
  | .versionDirective | .tagDirective _ | .documentStart | .documentEnd | .streamEnd =>
    g.pop.giveEmpty g.peek.mark
  | _ => g.node true false

/-- Reads the end of a document. Without a `...` no directive may follow. -/
def documentEnd (g : Grammar) : Step :=
  let mark := g.peek.mark
  let g := { g with handles := [] }
  match g.peek.kind with
  | .documentEnd => (g.skip.expect (.document false)).give .documentEnd mark
  | .versionDirective | .tagDirective _ => g.fail .badDirective
  | _ => (g.expect (.document true)).give .documentEnd mark

/-- Whether a token ends an entry of a block mapping. -/
def endsBlockEntry : TokenKind → Bool
  | .key | .value | .blockEnd => true
  | _ => false

/-- Reads an entry of a block sequence, or its end. -/
def blockEntry (g : Grammar) (first : Bool) : Step :=
  let g := if first then g.skip else g
  let mark := g.peek.mark
  match g.peek.kind with
  | .blockEnd => g.pop.skip.give .sequenceEnd mark
  | .blockEntry =>
    let g := g.skip
    match g.peek.kind with
    | .blockEntry | .blockEnd => (g.expect (.blockEntry false)).giveEmpty mark
    | _ => (g.expectLater (.blockEntry false)).node true false
  | _ => g.fail

/-- Reads an entry of a sequence that is not indented, or finds its end. -/
def indentlessEntry (g : Grammar) : Step :=
  let mark := g.peek.mark
  match g.peek.kind with
  | .blockEntry =>
    let g := g.skip
    if g.peek.kind = .blockEntry || endsBlockEntry g.peek.kind then
      (g.expect .indentlessEntry).giveEmpty mark
    else
      (g.expectLater .indentlessEntry).node true false
  | _ => g.pop.give .sequenceEnd mark

/-- Reads a key of a block mapping, or its end. -/
def blockKey (g : Grammar) (first : Bool) : Step :=
  let g := if first then g.skip else g
  let mark := g.peek.mark
  match g.peek.kind with
  | .key =>
    let g := g.skip
    if endsBlockEntry g.peek.kind then (g.expect .blockValue).giveEmpty g.peek.mark
    else (g.expectLater .blockValue).node true true
  | .value => (g.expect .blockValue).giveEmpty mark
  | .blockEnd => g.pop.skip.give .mappingEnd mark
  | _ => g.fail

/-- Reads a value of a block mapping. -/
def blockValue (g : Grammar) : Step :=
  let mark := g.peek.mark
  match g.peek.kind with
  | .value =>
    let g := g.skip
    if endsBlockEntry g.peek.kind then (g.expect (.blockKey false)).giveEmpty mark
    else (g.expectLater (.blockKey false)).node true true
  | _ => (g.expect (.blockKey false)).giveEmpty mark

/-- Reads an entry of a flow sequence, or its end. -/
def flowEntry (g : Grammar) (first : Bool) : Step := do
  let g := if first then g.skip else g
  if g.peek.kind = .flowSequenceEnd then
    return ← g.pop.skip.give .sequenceEnd g.peek.mark
  let g ← if first then pure g else if g.peek.kind = .flowEntry then pure g.skip else g.fail
  match g.peek.kind with
  | .flowSequenceEnd => g.pop.skip.give .sequenceEnd g.peek.mark
  | .key => (g.skip.expect .pairKey).give (.mappingStart 0) g.peek.mark
  | _ => (g.expectLater (.flowEntry false)).node false false

/-- Reads the key of a single pair. -/
def pairKey (g : Grammar) : Step :=
  match g.peek.kind with
  | .flowEntry | .flowSequenceEnd | .value => (g.skip.expect .pairValue).giveEmpty g.peek.mark
  | _ => (g.expectLater .pairValue).node false false

/-- Reads the value of a single pair. -/
def pairValue (g : Grammar) : Step :=
  match g.peek.kind with
  | .value =>
    let g := g.skip
    match g.peek.kind with
    | .flowEntry | .flowSequenceEnd => (g.expect .pairEnd).giveEmpty g.peek.mark
    | _ => (g.expectLater .pairEnd).node false false
  | _ => (g.expect .pairEnd).giveEmpty g.peek.mark

/-- Reads a key of a flow mapping, or its end. -/
def flowKey (g : Grammar) (first : Bool) : Step := do
  let g := if first then g.skip else g
  let mark := g.peek.mark
  if g.peek.kind = .flowMappingEnd then
    return ← g.pop.skip.give .mappingEnd mark
  let g ← if first then pure g else if g.peek.kind = .flowEntry then pure g.skip else g.fail
  match g.peek.kind with
  | .key =>
    let g := g.skip
    match g.peek.kind with
    | .value | .flowEntry | .flowMappingEnd => (g.expect .flowValue).giveEmpty g.peek.mark
    | _ => (g.expectLater .flowValue).node false false
  | .value => (g.expect .flowValue).giveEmpty g.peek.mark
  | .flowMappingEnd => g.pop.skip.give .mappingEnd mark
  | _ => (g.expectLater .noFlowValue).node false false

/-- Reads a value of a flow mapping. -/
def flowValue (g : Grammar) : Step :=
  let mark := g.peek.mark
  match g.peek.kind with
  | .value =>
    let g := g.skip
    match g.peek.kind with
    | .flowEntry | .flowMappingEnd => (g.expect (.flowKey false)).giveEmpty mark
    | _ => (g.expectLater (.flowKey false)).node false false
  | _ => (g.expect (.flowKey false)).giveEmpty mark

/-- Reads what is expected next. -/
def next (g : Grammar) : Step :=
  match g.expected with
  | .stream => (g.skip.expect (.document false)).give .streamStart g.peek.mark
  | .document explicit => g.document explicit
  | .content => g.content
  | .documentEnd => g.documentEnd
  | .node => g.node true false
  | .blockEntry first => g.blockEntry first
  | .indentlessEntry => g.indentlessEntry
  | .blockKey first => g.blockKey first
  | .blockValue => g.blockValue
  | .flowEntry first => g.flowEntry first
  | .pairKey => g.pairKey
  | .pairValue => g.pairValue
  | .pairEnd => (g.expect (.flowEntry false)).give .mappingEnd g.peek.mark
  | .flowKey first => g.flowKey first
  | .flowValue => g.flowValue
  | .noFlowValue => (g.expect (.flowKey false)).giveEmpty g.peek.mark
  | .nothing => g.fail

/-- Reads all events in at most `steps` steps. -/
def run : (steps : Nat) → Grammar → Except Error (List Event)
  | 0, g => g.fail
  | steps + 1, g => do
    let (event, g) ← g.next
    if event.kind = .streamEnd then
      return [event]
    else
      return event :: (← run steps g)

end Grammar

namespace Event

/-- The events of a list of tokens. A token takes part in at most four events: the beginning and the
end of a collection and two missing nodes. -/
def ofTokens (tokens : List Token) : Except Error (List Event) :=
  Grammar.run (4 * tokens.length + 4) ⟨tokens, .stream, [], [], 1, []⟩

/-- The events of a text. -/
def read (text : String) : Except Error (List Event) := do
  ofTokens (← Token.scan text.toList)

end Event

end PlaybookLint.Yaml
