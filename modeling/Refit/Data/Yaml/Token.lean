/-
The tokens of a YAML file.

A key of one line is known as such only at the colon after it, so its token and, outside brackets, the
start of its mapping are put in front of it then. `Scan.keys` holds the places where such a key may
have started, one for each depth of brackets.
-/
import Refit.Data.Yaml.Text

namespace Refit
namespace Data
namespace Yaml

inductive Symbol where
  | streamEnd
  /-- The version that a directive asks for, if it asks for one. -/
  | directive (version : Option Nat)
  | documentStart
  | documentEnd
  | blockSequence
  | blockMapping
  | blockEnd
  | flowSequence
  | flowMapping
  | flowSequenceEnd
  | flowMappingEnd
  | blockEntry
  | flowEntry
  | key
  | value
  | alias (name : Text)
  | anchor (name : Text)
  | tag (handle : Option Text) (suffix : Text)
  | scalar (text : Text) (isPlain : Bool)
  deriving Repr, DecidableEq

def Symbol.name : Symbol → Text
  | .streamEnd => "<stream end>"
  | .directive _ => "<directive>"
  | .documentStart => "<document start>"
  | .documentEnd => "<document end>"
  | .blockSequence => "<block sequence start>"
  | .blockMapping => "<block mapping start>"
  | .blockEnd => "<block end>"
  | .flowSequence => "["
  | .flowMapping => ['\x7b']
  | .flowSequenceEnd => "]"
  | .flowMappingEnd => ['\x7d']
  | .blockEntry => "-"
  | .flowEntry => ","
  | .key => "?"
  | .value => ":"
  | .alias _ => "<alias>"
  | .anchor _ => "<anchor>"
  | .tag .. => "<tag>"
  | .scalar .. => "<scalar>"

structure Token where
  symbol : Symbol
  start : Mark
  stop : Mark
  deriving Repr, DecidableEq

structure KeyStart where
  /-- The depth of brackets. -/
  level : Int
  /-- The number of tokens before it. -/
  place : Nat
  /-- Whether nothing but a key can stand there. -/
  required : Bool
  cursor : Cursor

structure Scan where
  cursor : Cursor
  tokens : List Token
  /-- The depth of brackets; it is negative after a bracket too many. -/
  level : Int
  indent : Int
  outer : List Int
  /-- Whether a key may start here. -/
  allowsKey : Bool
  keys : List KeyStart
  ended : Bool

namespace Scan

def start (s : Text) : Scan := ⟨.ofText s, [], 0, -1, [], true, [], false⟩

def inFlow (s : Scan) : Bool := s.level != 0

def at_ (s : Scan) (c : Cursor) : Scan := { s with cursor := c }

def allowing (s : Scan) (b : Bool) : Scan := { s with allowsKey := b }

def push (s : Scan) (symbol : Symbol) (start stop : Mark) : Scan :=
  { s with tokens := s.tokens ++ [⟨symbol, start, stop⟩] }

def insert (s : Scan) (place : Nat) (symbol : Symbol) (mark : Mark) : Scan :=
  { s with tokens := s.tokens.take place ++ ⟨symbol, mark, mark⟩ :: s.tokens.drop place }

/-- The longest distance from the start of a key to its colon. -/
def keyLimit : Nat := 1024

def keyFailure (k : KeyStart) (mark : Mark) : Failure :=
  failure "while scanning a simple key" k.cursor.mark "could not find expected ':'" mark

/-- Forgets the key starts that no colon can follow any more. -/
def dropStale (s : Scan) : Except Failure Scan :=
  let isStale (k : KeyStart) : Bool :=
    k.cursor.line != s.cursor.line || keyLimit < s.cursor.index - k.cursor.index
  match s.keys.find? fun k => isStale k && k.required with
  | some k => .error (keyFailure k s.cursor.mark)
  | none => .ok { s with keys := s.keys.filter fun k => !isStale k }

def dropKey (s : Scan) : Except Failure Scan :=
  match s.keys.find? fun k => k.level == s.level && k.required with
  | some k => .error (keyFailure k s.cursor.mark)
  | none => .ok { s with keys := s.keys.filter fun k => k.level != s.level }

def saveKey (s : Scan) : Except Failure Scan :=
  if s.allowsKey then do
    let required := !s.inFlow && s.indent == s.cursor.column
    let s ← s.dropKey
    return { s with keys := s.keys ++ [⟨s.level, s.tokens.length, required, s.cursor⟩] }
  else .ok s

def unwind (column : Int) : List Int → Scan → Scan
  | [], s => { s with outer := [] }
  | outer :: more, s =>
    if s.inFlow || s.indent ≤ column then { s with outer := outer :: more }
    else unwind column more { s.push .blockEnd s.cursor.mark s.cursor.mark with indent := outer }

def unwindTo (s : Scan) (column : Int) : Scan := unwind column s.outer s

def deepen? (s : Scan) (column : Nat) : Option Scan :=
  if s.indent < column then some { s with indent := column, outer := s.indent :: s.outer } else none

/-- Skips spaces, comments and line ends. Outside brackets a key may start on a new line. -/
def skipVacant : Nat → Scan → Scan
  | 0, s => s
  | fuel + 1, s =>
    let c := s.cursor.skipSpaces
    let c := if c.peek = some '#' then (c.run fun ch => !isBreak ch).2 else c
    if c.rest.isEmpty || !endsLine c.peek then s.at_ c
    else skipVacant fuel { s with cursor := c.lineEnd.2, allowsKey := s.allowsKey || !s.inFlow }

def mark (s : Scan) (symbol : Symbol) (length : Nat) : Scan :=
  let c := s.cursor.skip length
  (s.push symbol s.cursor.mark c.mark).at_ c

/-! ### Anchors, tags and directives -/

def isNameChar (c : Char) : Bool := c.isAlphanum || c == '-' || c == '_'

def unexpectedName (context : Text) (start : Mark) (c : Cursor) : Failure :=
  failure context start ("expected alphabetic or numeric character, but found " ++ c.quoted) c.mark

def anchorName (context : Text) (c : Cursor) : Except Failure (Text × Cursor) :=
  let start := c.mark
  let name := c.next.run isNameChar
  let after := name.2
  if name.1.isEmpty || !(endsWord after.peek ||
      after.peek.any ['?', ':', ',', ']', '\x7d', '%', '@', '\x60'].contains) then
    .error (unexpectedName context start after)
  else .ok name

def isTagChar (c : Char) : Bool := c.isAlphanum || "-;/?:@&=+$,_.!~*'()[]%".toList.contains c

def tagContext : Text := "while scanning a tag"

def tagUri (start : Mark) (c : Cursor) : Except Failure (Text × Cursor) :=
  let uri := c.run isTagChar
  if uri.1.isEmpty then
    .error (failure "while parsing a tag" start ("expected URI, but found " ++ c.quoted) c.mark)
  else .ok uri

/-- A handle and its suffix; no handle where the tag is written out. -/
def tagName (c : Cursor) : Except Failure ((Option Text × Text) × Cursor) := do
  let start := c.mark
  let result ←
    if c.peekAt 1 = some '<' then do
      let (uri, after) ← tagUri start (c.skip 2)
      if after.peek = some '>' then pure (((none, uri), after.next) : (Option Text × Text) × Cursor)
      else .error (failure "while parsing a tag" start ("expected '>', but found " ++ after.quoted)
        after.mark)
    else if endsWord (c.peekAt 1) then pure ((none, ['!']), c.next)
    else if ((c.next.run fun ch => ch != ' ' && !isBreak ch).1).contains '!' then do
      let name := c.next.run isNameChar
      let after := name.2
      if after.peek = some '!' then
        let (suffix, after) ← tagUri start after.next
        pure ((some ('!' :: name.1 ++ ['!']), suffix), after)
      else .error (failure tagContext start ("expected '!', but found " ++ after.quoted) after.mark)
    else do
      let (suffix, after) ← tagUri start c.next
      pure ((some ['!'], suffix), after)
  let after := result.2
  if endsLine after.peek || after.peek = some ' ' then return result
  else .error (failure tagContext start ("expected ' ', but found " ++ after.quoted) after.mark)

def directiveContext : Text := "while scanning a directive"

def versionNumber (start : Mark) (c : Cursor) : Except Failure (Nat × Cursor) :=
  let digits := c.run Json.isAsciiDigit
  if digits.1.isEmpty then
    .error (failure directiveContext start ("expected a digit, but found " ++ c.quoted) c.mark)
  else .ok (Text.digitsValue digits.1, digits.2)

def version (start : Mark) (c : Cursor) : Except Failure (Nat × Cursor) := do
  let (first, c) ← versionNumber start c.skipSpaces
  if c.peek ≠ some '.' then
    .error (failure directiveContext start ("expected a digit or '.', but found " ++ c.quoted) c.mark)
  else
    let (_, c) ← versionNumber start c.next
    if endsLine c.peek || c.peek = some ' ' then return (first, c)
    else .error (failure directiveContext start ("expected a digit or ' ', but found " ++ c.quoted)
      c.mark)

def directive (c : Cursor) : Except Failure (Option Nat × Cursor) := do
  let start := c.mark
  let name := c.next.run isNameChar
  let c := name.2
  if name.1.isEmpty || !(endsLine c.peek || c.peek = some ' ') then
    .error (unexpectedName directiveContext start c)
  else
    let (asked, c) ←
      if name.1 = "YAML".toList then do
        let (n, c) ← version start c
        pure ((some n, c) : Option Nat × Cursor)
      else pure (none, (c.run fun ch => !isBreak ch).2)
    return (asked, ← vacantLine directiveContext start c)

/-! ### One token after the other -/

def notAllowed (what : Text) (s : Scan) : Failure :=
  .malformed none (what ++ " are not allowed here") s.cursor.mark

/-- A mark of a block, which opens the block that it is the first mark of. -/
def blockMark (s : Scan) (what : Text) (opening symbol : Symbol) : Except Failure Scan :=
  if s.inFlow then do
    let s ← (s.allowing (symbol == .blockEntry)).dropKey
    return s.mark symbol 1
  else if !s.allowsKey then .error (notAllowed what s)
  else do
    let s := match s.deepen? s.cursor.column with
      | some t => t.push opening s.cursor.mark s.cursor.mark
      | none => s
    let s ← (s.allowing true).dropKey
    return s.mark symbol 1

/-- A colon: after a key of one line it makes it one. -/
def colon (s : Scan) : Except Failure Scan :=
  match s.keys.find? fun k => k.level == s.level with
  | none => s.blockMark "mapping values" .blockMapping .value
  | some k =>
    let s := { s with keys := s.keys.filter fun k => k.level != s.level, allowsKey := false }
    let mark := k.cursor.mark
    let s := s.insert k.place .key mark
    let opened := if s.inFlow then none else s.deepen? k.cursor.column
    let s := match opened with
      | some t => t.insert k.place .blockMapping mark
      | none => s
    .ok (s.mark .value 1)

def isPlainStart (s : Scan) (c : Char) : Bool :=
  if c == '-' || (!s.inFlow && (c == '?' || c == ':')) then !endsWord (s.cursor.peekAt 1)
  else !(endsWord (some c) || "?:,[]&*!|>'\"%@#".toList.contains c || c == '\x7b' || c == '\x7d' ||
    c == '\x60')

def scalarToken (s : Scan) (r : Text × Cursor) : Scan :=
  (s.push (.scalar r.1 false) s.cursor.mark r.2.mark).at_ r.2

def fetchAt (s : Scan) (c : Char) : Except Failure Scan := do
  let here := s.cursor
  let spaced := endsWord (here.peekAt 1)
  if here.column = 0 && (c == '%' || here.atSeparator) then
    let s ← (s.unwindTo (-1)).dropKey
    let s := s.allowing false
    if c = '%' then
      let (asked, after) ← directive here
      return (s.push (.directive asked) here.mark after.mark).at_ after
    else return s.mark (if c = '-' then .documentStart else .documentEnd) 3
  else if c = '[' ∨ c = '\x7b' then
    let s ← s.saveKey
    return { s.mark (if c = '[' then .flowSequence else .flowMapping) 1 with
      level := s.level + 1, allowsKey := true }
  else if c = ']' ∨ c = '\x7d' then
    let s ← s.dropKey
    return { s.mark (if c = ']' then .flowSequenceEnd else .flowMappingEnd) 1 with
      level := s.level - 1, allowsKey := false }
  else if c = ',' then
    let s ← s.dropKey
    return (s.mark .flowEntry 1).allowing true
  else if c = '-' ∧ spaced then s.blockMark "sequence entries" .blockSequence .blockEntry
  else if c = '?' ∧ (s.inFlow ∨ spaced) then s.blockMark "mapping keys" .blockMapping .key
  else if c = ':' ∧ (s.inFlow ∨ spaced) then s.colon
  else if c = '*' then
    let s ← s.saveKey
    let (name, after) ← anchorName "while scanning an alias" here
    return ((s.push (.alias name) here.mark after.mark).at_ after).allowing false
  else if c = '&' then
    let s ← s.saveKey
    let (name, after) ← anchorName "while scanning an anchor" here
    return ((s.push (.anchor name) here.mark after.mark).at_ after).allowing false
  else if c = '!' then
    let s ← s.saveKey
    let (name, after) ← tagName here
    return ((s.push (.tag name.1 name.2) here.mark after.mark).at_ after).allowing false
  else if !s.inFlow && (c == '|' || c == '>') then
    let s ← (s.allowing true).dropKey
    return s.scalarToken (← blockText (c == '>') s.indent here)
  else if c = '"' ∨ c = '\'' then
    let s ← s.saveKey
    return (s.scalarToken (← quotedText (c == '"') here)).allowing false
  else if s.isPlainStart c then
    let s ← s.saveKey
    let r := plainText s.inFlow (s.indent + 1).toNat here
    return ((s.push (.scalar r.text true) here.mark r.cursor.mark).at_ r.cursor).allowing r.crossed
  else
    .error (.malformed (some ⟨"while scanning for the next token", none⟩)
      ("found character " ++ here.quoted ++ " that cannot start any token") here.mark)

def fetch (s : Scan) : Except Failure Scan := do
  let first := if s.cursor.index = 0 ∧ s.cursor.peek = some '\ufeff' then s.cursor.next else s.cursor
  let s ← (skipVacant (first.rest.length + 1) (s.at_ first)).dropStale
  let s := s.unwindTo s.cursor.column
  match s.cursor.peek with
  | some c => s.fetchAt c
  | none =>
    let s ← (s.unwindTo (-1)).dropKey
    return { s.mark .streamEnd 0 with allowsKey := false, keys := [], ended := true }

end Scan

/-- The tokens of a file as far as they can be read, and what is wrong after them; after the end of a
file nothing is asked for. -/
structure Tokens where
  list : List Token
  failure : Failure

/-- The tokens that can be taken while the one after them is still to be read: none from a possible key
on, since whether it is one is not known. -/
def Scan.settled (s : Scan) : List Token :=
  s.tokens.take (s.keys.foldl (fun n k => min n k.place) s.tokens.length)

/-- Reads tokens to the end of the file. Every token takes a character, so the length of the file
bounds their number. -/
def Scan.toEnd : Nat → Scan → Tokens
  | 0, s => ⟨s.tokens, .malformed none [] s.cursor.mark⟩
  | fuel + 1, s =>
    if s.ended then ⟨s.tokens, .malformed none [] s.cursor.mark⟩
    else
      let kept := (s.dropStale.toOption).getD s
      match s.dropStale.bind Scan.fetch with
      | .ok t => toEnd fuel t
      | .error f => ⟨kept.settled, f⟩

def Tokens.ofText (s : Text) : Tokens := (Scan.start s).toEnd (s.length + 2)

end Yaml
end Data
end Refit
