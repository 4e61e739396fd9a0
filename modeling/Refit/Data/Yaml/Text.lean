/-
The texts of YAML files: unquoted, quoted and block text.
-/
import Refit.Data.Json
import Refit.Data.Yaml.Cursor

namespace Refit
namespace Data
namespace Yaml

open Json (hexValue? isAsciiDigit)

/-! ### Unquoted text -/

def flowMarks : List Char := [',', '[', ']', '\x7b', '\x7d']

def wordLength (inFlow : Bool) : Text → Nat
  | [] => 0
  | c :: rest =>
    let next := rest.head?
    let stops := endsWord (some c) ||
      (c == ':' && (endsWord next || (inFlow && next.any flowMarks.contains))) ||
      (inFlow && (c == '?' || flowMarks.contains c))
    if stops then 0 else wordLength inFlow rest + 1

/-- The line ends between two words, as far as no other document starts: they as kept, and the place
after them. -/
def blankLines : Nat → Cursor → Text × Cursor
  | 0, c => ([], c)
  | fuel + 1, c =>
    let c := c.skipSpaces
    if endsLine c.peek && c.peek.isSome then
      let e := c.lineEnd
      if e.2.atSeparator then (e.1, e.2)
      else
        let r := blankLines fuel e.2
        (e.1 ++ r.1, r.2)
    else ([], c)

/-- A line end with the line ends after it: one line feed alone is a space. -/
def fold (lineEnd more : Text) : Text :=
  if lineEnd ≠ ['\n'] then lineEnd ++ more
  else if more.isEmpty then [' '] else more

structure Gap where
  text : Text
  cursor : Cursor
  /-- Whether a line ends in it. -/
  crossed : Bool

/-- The gap after a word. Where another document starts there is none. -/
def gap (c : Cursor) : Gap :=
  let spaces := c.run (· == ' ')
  let c := spaces.2
  if endsLine c.peek && c.peek.isSome then
    let e := c.lineEnd
    if e.2.atSeparator then ⟨[], e.2, true⟩
    else
      let more := blankLines e.2.rest.length e.2
      if more.2.column = 0 && more.2.atSeparator then ⟨[], more.2, true⟩
      else ⟨fold e.1 more.1, more.2, true⟩
  else ⟨spaces.1, c, false⟩

/-- A text, the place after it, and whether a line has ended since its last word. -/
structure Plain where
  text : Text
  cursor : Cursor
  crossed : Bool

/-- Unquoted text below an indentation, with `before` the gap before it. -/
def plain (inFlow : Bool) (indent : Nat) : Nat → Gap → Plain
  | 0, before => ⟨[], before.cursor, before.crossed⟩
  | fuel + 1, before =>
    let c := before.cursor
    let length := if c.peek = some '#' then 0 else wordLength inFlow c.rest
    if length = 0 then ⟨[], c, before.crossed⟩
    else
      let word := c.rest.take length
      let after := gap (c.skip length)
      if after.text.isEmpty || (!inFlow && after.cursor.column < indent) then
        ⟨before.text ++ word, after.cursor, after.crossed⟩
      else
        let more := plain inFlow indent fuel after
        ⟨before.text ++ word ++ more.text, more.cursor, more.crossed⟩

def plainText (inFlow : Bool) (indent : Nat) (c : Cursor) : Plain :=
  plain inFlow indent (c.rest.length + 1) ⟨[], c, false⟩

/-! ### Quoted text -/

def quotedContext : Text := "while scanning a quoted scalar"

def quotedLines (start : Mark) : Nat → Cursor → Except Failure (Text × Cursor)
  | 0, c => .ok ([], c)
  | fuel + 1, c =>
    if c.atSeparator then
      .error (failure quotedContext start "found unexpected document separator" c.mark)
    else
      let c := (c.run Text.isGap).2
      if endsLine c.peek && c.peek.isSome then do
        let e := c.lineEnd
        let r ← quotedLines start fuel e.2
        return (e.1 ++ r.1, r.2)
      else .ok ([], c)

/-- White space in quoted text: spaces stay within a line, and a line end is folded. -/
def quotedSpace (start : Mark) (c : Cursor) : Except Failure (Text × Cursor) :=
  let spaces := c.run Text.isGap
  let c := spaces.2
  match c.peek with
  | none => .error (failure quotedContext start "found unexpected end of stream" c.mark)
  | some ch =>
    if isBreak ch then do
      let e := c.lineEnd
      let r ← quotedLines start e.2.rest.length e.2
      return (fold e.1 r.1, r.2)
    else .ok spaces

def escapes : List (Char × Nat) :=
  [('0', 0), ('a', 7), ('b', 8), ('t', 9), ('\t', 9), ('n', 10), ('v', 11), ('f', 12), ('r', 13),
   ('e', 27), (' ', 32), ('"', 34), ('\\', 92), ('/', 47), ('N', 0x85), ('_', 0xA0), ('L', 0x2028),
   ('P', 0x2029)]

def codeLengths : List (Char × Nat) := [('x', 2), ('u', 4), ('U', 8)]

def doubleContext : Text := "while scanning a double-quoted scalar"

def coded (start : Mark) (count : Nat) (c : Cursor) : Except Failure (Text × Cursor) :=
  let digits := c.rest.take count
  match (List.range count).find? fun k => !(c.peekAt k).any fun d => (hexValue? d).isSome with
  | some k =>
    .error (failure doubleContext start
      ("expected escape sequence of " ++ Text.ofNat count ++ " hexadecimal numbers, but found " ++
        (c.skip k).quoted) c.mark)
  | none =>
    let code := digits.foldl (fun n d => 16 * n + (hexValue? d).getD 0) 0
    if 0x10FFFF < code then .error (.fault .invalidNumber)
    else .ok ([if code.isValidChar then Char.ofNat code else '\ufffd'], c.skip count)

/-- What a backslash and the text after it stand for; `c` is the place after the backslash. -/
def escape (start : Mark) (c : Cursor) : Except Failure (Text × Cursor) :=
  let unknown : Failure :=
    failure doubleContext start ("found unknown escape character " ++ c.quoted) c.mark
  match c.peek with
  | none => .error unknown
  | some ch =>
    match escapes.find? fun e => e.1 == ch, codeLengths.find? fun e => e.1 == ch with
    | some e, _ => .ok ([Char.ofNat e.2], c.next)
    | none, some e => coded start e.2 c.next
    | none, none =>
      if isBreak ch then
        let e := c.lineEnd
        quotedLines start e.2.rest.length e.2
      else .error unknown

def quotedBody (double : Bool) (start : Mark) : Nat → Cursor → Except Failure (Text × Cursor)
  | 0, c => .error (failure quotedContext start "found unexpected end of stream" c.mark)
  | fuel + 1, c => do
    let more (piece : Text × Cursor) : Except Failure (Text × Cursor) := do
      let r ← quotedBody double start fuel piece.2
      return (piece.1 ++ r.1, r.2)
    match c.rest with
    | [] => more (← quotedSpace start c)
    | ch :: rest =>
      if endsWord (some ch) then more (← quotedSpace start c)
      else if double then
        if ch = '"' then return ([], c.next)
        else if ch = '\\' then more (← escape start c.next)
        else more ([ch], c.next)
      else if ch = '\'' then
        if rest.head? = some '\'' then more ([ch], c.next.next) else return ([], c.next)
      else more ([ch], c.next)

def quotedText (double : Bool) (c : Cursor) : Except Failure (Text × Cursor) :=
  quotedBody double c.mark (2 * c.rest.length + 2) c.next

/-! ### Block text -/

inductive Chomp where
  | clip
  | strip
  | keep
  deriving Repr, DecidableEq

structure BlockHeader where
  chomp : Chomp
  /-- The indentation below the parent, where the header gives it. -/
  deeper : Option Nat
  cursor : Cursor

def blockContext : Text := "while scanning a block scalar"

def chomp? : Option Char → Option Chomp
  | some '+' => some .keep
  | some '-' => some .strip
  | _ => none

/-- An indentation of one to nine, if there is a digit. -/
def deeper (start : Mark) (c : Cursor) : Except Failure (Option Nat × Cursor) :=
  match c.peek with
  | some d =>
    if d = '0' then
      .error (failure blockContext start
        "expected indentation indicator in the range 1-9, but found 0" c.mark)
    else if isAsciiDigit d then .ok (some (d.toNat - 48), c.next)
    else .ok (none, c)
  | none => .ok (none, c)

def blockHeader (start : Mark) (c : Cursor) : Except Failure BlockHeader := do
  let header ← match chomp? c.peek with
    | some chomp =>
      let (deeper, c) ← deeper start c.next
      pure (⟨chomp, deeper, c⟩ : BlockHeader)
    | none =>
      let (deeper, c) ← deeper start c
      match deeper, chomp? c.peek with
      | some n, some chomp => pure ⟨chomp, some n, c.next⟩
      | deeper, _ => pure ⟨.clip, deeper, c⟩
  let c := header.cursor
  if endsLine c.peek || c.peek = some ' ' then return header
  else .error (failure blockContext start
    ("expected chomping or indentation indicators, but found " ++ c.quoted) c.mark)

def vacantLine (context : Text) (start : Mark) (c : Cursor) : Except Failure Cursor :=
  let c := c.skipSpaces
  let c := if c.peek = some '#' then (c.run fun ch => !isBreak ch).2 else c
  if endsLine c.peek then .ok c.lineEnd.2
  else .error (failure context start
    ("expected a comment or a line break, but found " ++ c.quoted) c.mark)

/-- The blank lines before block text whose indentation is still to be found, with the deepest column
that their spaces reach. -/
def leadingLines (deepest : Nat) : Nat → Cursor → Text × Nat × Cursor
  | 0, c => ([], deepest, c)
  | fuel + 1, c =>
    match c.peek with
    | some ch =>
      if ch = ' ' then
        let c := c.next
        leadingLines (max deepest c.column) fuel c
      else if isBreak ch then
        let e := c.lineEnd
        let r := leadingLines deepest fuel e.2
        (e.1 ++ r.1, r.2)
      else ([], deepest, c)
    | none => ([], deepest, c)

def skipIndent (indent : Nat) (c : Cursor) : Cursor :=
  c.skip (min (indent - c.column) (c.rest.takeWhile (· == ' ')).length)

def blockBreaks (indent : Nat) : Nat → Cursor → Text × Cursor
  | 0, c => ([], c)
  | fuel + 1, c =>
    let c := skipIndent indent c
    if endsLine c.peek && c.peek.isSome then
      let e := c.lineEnd
      let r := blockBreaks indent fuel e.2
      (e.1 ++ r.1, r.2)
    else ([], c)

/-- Lines of block text. `breaks` are the line ends before the next line, after the end of the line
before it. -/
structure BlockState where
  text : Text
  lineEnd : Text
  breaks : Text
  cursor : Cursor

/-- Reads the lines at an indentation. In folded text a single line end between two lines that are not
indented is a space. -/
def blockLines (folded : Bool) (indent : Nat) : Nat → BlockState → BlockState
  | 0, s => s
  | fuel + 1, s =>
    let c := s.cursor
    if c.column ≠ indent ∨ c.rest.isEmpty then s
    else
      let flush := !c.peek.any Text.isGap
      let line := c.run fun ch => !isBreak ch
      let e := line.2.lineEnd
      let blank := blockBreaks indent (e.2.rest.length + 1) e.2
      let read := s.text ++ s.breaks ++ line.1
      let after := blank.2
      if after.column = indent && !after.rest.isEmpty then
        let joined : Text :=
          if folded && e.1 = ['\n'] && flush && !after.peek.any Text.isGap then
            if blank.1.isEmpty then [' '] else []
          else e.1
        blockLines folded indent fuel ⟨read ++ joined, [], blank.1, after⟩
      else ⟨read, e.1, blank.1, after⟩

/-- Block text below an indentation, and the place after it; `c` is the place of the bar or angle. -/
def blockText (folded : Bool) (parent : Int) (c : Cursor) : Except Failure (Text × Cursor) := do
  let start := c.mark
  let header ← blockHeader start c.next
  let c ← vacantLine blockContext start header.cursor
  let least := max 1 (parent + 1).toNat
  let fuel := c.rest.length + 1
  let (leading, indent, c) := match header.deeper with
    | some n =>
      let indent := least + n - 1
      let r := blockBreaks indent fuel c
      (r.1, indent, r.2)
    | none =>
      let r := leadingLines 0 fuel c
      (r.1, max least r.2.1, r.2.2)
  let s := blockLines folded indent fuel ⟨[], [], leading, c⟩
  let tail : Text := match header.chomp with
    | .strip => []
    | .clip => s.lineEnd
    | .keep => s.lineEnd ++ s.breaks
  return (s.text ++ tail, s.cursor)

end Yaml
end Data
end Refit
