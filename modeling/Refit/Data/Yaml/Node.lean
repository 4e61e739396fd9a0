/-
The nodes of a YAML document, read from its tokens.

A node that carries an anchor can stand again in a later place, under an alias.
-/
import Refit.Data.Yaml.Token
import Refit.Data.Yaml.Word

namespace Refit
namespace Data
namespace Yaml

inductive Node where
  | scalar (kind : Kind) (mark : Mark) (text : Text)
  | sequence (kind : Kind) (mark : Mark) (items : List Node)
  | mapping (kind : Kind) (mark : Mark) (entries : List (Node × Node))

namespace Node

def mark : Node → Mark
  | .scalar _ m _ => m
  | .sequence _ m _ => m
  | .mapping _ m _ => m

def kind : Node → Kind
  | .scalar k _ _ => k
  | .sequence k _ _ => k
  | .mapping k _ _ => k

def vacant (mark : Mark) : Node := .scalar .null mark []

end Node

structure Reading where
  tokens : List Token
  /-- What is wrong after the last token. -/
  failure : Failure
  anchors : List (Text × Node)

abbrev Reader := StateT Reading (Except Failure)

namespace Reader

def peek : Reader Token := do
  match (← get).tokens with
  | t :: _ => return t
  | [] => throw (← get).failure

def take : Reader Token := do
  let t ← peek
  modify fun r => { r with tokens := r.tokens.drop 1 }
  return t

def accept (symbol : Symbol) : Reader Bool := do
  if (← peek).symbol = symbol then
    let _ ← take
    return true
  else return false

def unexpected (context : Text) (start : Mark) (expected : Text) (t : Token) : Failure :=
  failure context start (expected ++ Text.Quoted.encode t.symbol.name) t.start

structure Properties where
  anchor : Option Text
  /-- A handle and its suffix, and where the tag stands. -/
  tag : Option ((Option Text × Text) × Mark)
  /-- Where they start, if there are any. -/
  start : Option Mark
  /-- Where they end. -/
  stop : Mark

def anchorProperty (p : Properties) : Reader Properties := do
  let t ← peek
  match t.symbol with
  | .anchor name =>
    let _ ← take
    return { p with anchor := some name, start := p.start.or (some t.start), stop := t.stop }
  | _ => return p

def tagProperty (p : Properties) : Reader Properties := do
  let t ← peek
  match t.symbol with
  | .tag handle suffix =>
    let _ ← take
    return { p with
      tag := some ((handle, suffix), t.start), start := p.start.or (some t.start), stop := t.stop }
  | _ => return p

def properties : Reader Properties := do
  let t ← peek
  let p : Properties := ⟨none, none, none, t.start⟩
  match t.symbol with
  | .anchor _ => tagProperty (← anchorProperty p)
  | .tag .. => anchorProperty (← tagProperty p)
  | _ => return p

/-- The kind that a tag names. A lone exclamation mark leaves it to the form of the node. -/
def kindOfTag (p : Properties) (start : Mark) : Reader (Option Kind) :=
  match p.tag with
  | none => return none
  | some ((none, suffix), _) => return if suffix = ['!'] then none else some (.ofName suffix)
  | some ((some handle, suffix), mark) =>
    if handle = ['!'] then return some (.other ('!' :: suffix))
    else if handle = ['!', '!'] then return some (.ofName (kindLead ++ suffix))
    else throw (failure "while parsing a node" start
      ("found undefined tag handle " ++ Text.Quoted.encode handle) mark)

def checkAnchor (anchor : Option Text) (start : Mark) : Reader Unit := do
  match anchor with
  | none => return
  | some name =>
    match (← get).anchors.find? fun e => e.1 == name with
    | none => return
    | some e =>
      throw (failure ("found duplicate anchor " ++ Text.Quoted.encode name ++ "; first occurrence")
        e.2.mark "second occurrence" start)

def keepAnchor (anchor : Option Text) (node : Node) : Reader Node := do
  if let some name := anchor then
    modify fun r => { r with anchors := (name, node) :: r.anchors }
  return node

def aliasNode (name : Text) (t : Token) : Reader Node := do
  match (← get).anchors.find? fun e => e.1 == name with
  | some e => return e.2
  | none =>
    throw (.malformed none ("found undefined alias " ++ Text.Quoted.encode name) t.start)

def sequenceContext : Text := "while parsing a flow sequence"

def mappingContext : Text := "while parsing a flow mapping"

mutual

/-- A node, by indentation or in brackets. Where `indentless`, dashes no deeper than the mapping make a
list. -/
def node (isBlock indentless : Bool) : Nat → Reader Node
  | 0 => do throw (← get).failure
  | fuel + 1 => do
    let first ← peek
    if let .alias name := first.symbol then
      let _ ← take
      return ← aliasNode name first
    let p ← properties
    let t ← peek
    let start := p.start.getD t.start
    let kind ← kindOfTag p start
    match t.symbol with
    | .scalar text isPlain =>
      let _ ← take
      checkAnchor p.anchor start
      let implied := if isPlain || p.tag.isSome then kindOf text else .text
      keepAnchor p.anchor (.scalar (kind.getD implied) start text)
    | symbol =>
      if indentless && symbol = .blockEntry then
        checkAnchor p.anchor start
        let items ← indentlessItems fuel
        keepAnchor p.anchor (.sequence (kind.getD .sequence) start items)
      else if symbol = .flowSequence then
        checkAnchor p.anchor start
        let _ ← take
        let items ← flowItems t.start true fuel
        keepAnchor p.anchor (.sequence (kind.getD .sequence) start items)
      else if symbol = .flowMapping then
        checkAnchor p.anchor start
        let _ ← take
        let entries ← flowEntries t.start true fuel
        keepAnchor p.anchor (.mapping (kind.getD .mapping) start entries)
      else if isBlock && symbol = .blockSequence then
        checkAnchor p.anchor start
        let _ ← take
        let items ← blockItems t.start fuel
        keepAnchor p.anchor (.sequence (kind.getD .sequence) start items)
      else if isBlock && symbol = .blockMapping then
        checkAnchor p.anchor start
        let _ ← take
        let entries ← blockEntries t.start fuel
        keepAnchor p.anchor (.mapping (kind.getD .mapping) start entries)
      else if p.start.isSome then
        checkAnchor p.anchor start
        keepAnchor p.anchor (.scalar (kind.getD .null) start [])
      else
        let context : Text :=
          if isBlock then "while parsing a block node" else "while parsing a flow node"
        throw (unexpected context start "expected the node content, but found " t)

def blockItems (start : Mark) : Nat → Reader (List Node)
  | 0 => do throw (← get).failure
  | fuel + 1 => do
    let t ← take
    match t.symbol with
    | .blockEntry =>
      let next ← peek
      let item ←
        if next.symbol = .blockEntry ∨ next.symbol = .blockEnd then pure (Node.vacant t.stop)
        else node true false fuel
      return item :: (← blockItems start fuel)
    | .blockEnd => return []
    | _ =>
      throw (unexpected "while parsing a block collection" start "expected <block end>, but found " t)

def indentlessItems : Nat → Reader (List Node)
  | 0 => do throw (← get).failure
  | fuel + 1 => do
    let t ← peek
    if t.symbol = .blockEntry then
      let _ ← take
      let next ← peek
      let item ←
        if [Symbol.blockEntry, .key, .value, .blockEnd].contains next.symbol then
          pure (Node.vacant t.stop)
        else node true false fuel
      return item :: (← indentlessItems fuel)
    else return []

/-- A key or a value by indentation after its mark, which may not be written. -/
def blockPart (mark : Token) : Nat → Reader Node
  | 0 => do throw (← get).failure
  | fuel + 1 => do
    if [Symbol.key, .value, .blockEnd].contains (← peek).symbol then return Node.vacant mark.stop
    else node true true fuel

def blockEntries (start : Mark) : Nat → Reader (List (Node × Node))
  | 0 => do throw (← get).failure
  | fuel + 1 => do
    let t ← peek
    match t.symbol with
    | .key =>
      let _ ← take
      let k ← blockPart t fuel
      let v ← blockValue fuel
      return (k, v) :: (← blockEntries start fuel)
    | .blockEnd =>
      let _ ← take
      return []
    | _ =>
      throw (unexpected "while parsing a block mapping" start "expected <block end>, but found " t)

def blockValue : Nat → Reader Node
  | 0 => do throw (← get).failure
  | fuel + 1 => do
    let t ← peek
    if t.symbol = .value then
      let _ ← take
      blockPart t fuel
    else return Node.vacant t.start

def flowItems (start : Mark) (isFirst : Bool) : Nat → Reader (List Node)
  | 0 => do throw (← get).failure
  | fuel + 1 => do
    if ← accept .flowSequenceEnd then return []
    if !isFirst then
      if !(← accept .flowEntry) then
        throw (unexpected sequenceContext start "expected ',' or ']', but got " (← peek))
      if ← accept .flowSequenceEnd then return []
    let t ← peek
    if t.symbol = .key then
      let _ ← take
      let k ← flowPart t [.value, .flowEntry, .flowSequenceEnd] fuel
      let v ← flowValue [.flowEntry, .flowSequenceEnd] fuel
      return .mapping .mapping t.start [(k, v)] :: (← flowItems start false fuel)
    else
      let item ← node false false fuel
      return item :: (← flowItems start false fuel)

/-- A key or a value in brackets after its mark, which is not written before one of the symbols. -/
def flowPart (mark : Token) (stops : List Symbol) : Nat → Reader Node
  | 0 => do throw (← get).failure
  | fuel + 1 => do
    if stops.contains (← peek).symbol then return Node.vacant mark.stop
    else node false false fuel

def flowValue (stops : List Symbol) : Nat → Reader Node
  | 0 => do throw (← get).failure
  | fuel + 1 => do
    let t ← peek
    if t.symbol = .value then
      let _ ← take
      flowPart t stops fuel
    else return Node.vacant t.start

def flowEntries (start : Mark) (isFirst : Bool) : Nat → Reader (List (Node × Node))
  | 0 => do throw (← get).failure
  | fuel + 1 => do
    if ← accept .flowMappingEnd then return []
    if !isFirst then
      if !(← accept .flowEntry) then
        let expected : Text := "expected ',' or '\x7d', but got "
        throw (unexpected mappingContext start expected (← peek))
      if ← accept .flowMappingEnd then return []
    let t ← peek
    if t.symbol = .key then
      let _ ← take
      let k ← flowPart t [.value, .flowEntry, .flowMappingEnd] fuel
      let v ← flowValue [.flowEntry, .flowMappingEnd] fuel
      return (k, v) :: (← flowEntries start false fuel)
    else
      let k ← node false false fuel
      return (k, Node.vacant t.start) :: (← flowEntries start false fuel)

end

/-! ### Documents -/

/-- Reads the directives before a document. Only the first version is known, and it is asked for at
most once. -/
def directives (seen : Bool) : Nat → Reader Unit
  | 0 => return
  | fuel + 1 => do
    let t ← peek
    match t.symbol with
    | .directive version =>
      let _ ← take
      match version with
      | none => directives seen fuel
      | some n =>
        if seen then throw (.malformed none "found duplicate YAML directive" t.start)
        else if n ≠ 1 then
          throw (.malformed none "found incompatible YAML document (version 1.* is required)" t.start)
        else directives true fuel
    | _ => return

def isDirective : Symbol → Bool
  | .directive _ => true
  | _ => false

def endsDocument (s : Symbol) : Bool :=
  isDirective s || [Symbol.documentStart, .documentEnd, .streamEnd].contains s

def documentStart (fuel : Nat) : Reader Unit := do
  directives false fuel
  if !(← accept .documentStart) then
    let t ← peek
    throw (.malformed none
      ("expected '<document start>', but found " ++ Text.Quoted.encode t.symbol.name) t.start)

def skipEnds : Nat → Reader Unit
  | 0 => return
  | fuel + 1 => do
    if ← accept .documentEnd then skipEnds fuel

def document (fuel : Nat) : Reader (Option Node) := do
  let t ← peek
  if t.symbol = .streamEnd then return none
  let root ←
    if isDirective t.symbol || t.symbol = .documentStart then do
      documentStart fuel
      let t ← peek
      if endsDocument t.symbol then pure (Node.vacant t.start) else node true false fuel
    else node true false fuel
  skipEnds fuel
  let t ← peek
  if t.symbol = .streamEnd then return some root
  documentStart fuel
  throw (failure "expected a single document in the stream" root.mark "but found another document"
    t.start)

end Reader

/-- The node of a file. Every step of the reading takes a token or ends a part that a token began, so
a multiple of their number bounds the steps. -/
def Node.ofText? (s : Text) : Except Failure (Option Node) := do
  let tokens := Tokens.ofText s
  let fuel := 4 * tokens.list.length + 8
  return (← (Reader.document fuel).run ⟨tokens.list, tokens.failure, []⟩).1

end Yaml
end Data
end Refit
