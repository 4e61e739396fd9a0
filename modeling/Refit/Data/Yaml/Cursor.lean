/-
Places in a YAML file: the text still to come with the line and column it starts at, and what is said
of a file that cannot be read.
-/
import Refit.Fault
import Refit.Text.Quoted

namespace Refit
namespace Data
namespace Yaml

structure Mark where
  line : Nat
  column : Nat
  deriving Repr, DecidableEq

structure Context where
  text : Text
  mark : Option Mark
  deriving Repr, DecidableEq

inductive Failure where
  /-- Text that breaks a rule of the format. -/
  | malformed (context : Option Context) (problem : Text) (mark : Mark)
  /-- A character that no file may hold, and its index. -/
  | unacceptable (code index : Nat)
  /-- A word of a kind that it is no word of. -/
  | fault (cause : Fault)
  deriving Repr, DecidableEq

def Mark.text (name : Text) (m : Mark) : Text :=
  "  in \"" ++ name ++ "\", line " ++ Text.ofNat (m.line + 1) ++ ", column " ++
    Text.ofNat (m.column + 1)

/-- What is said of a file with a name. The start of the context is left out where it is the place of
the problem itself. -/
def Failure.text (name : Text) : Failure → Text
  | .malformed context problem mark =>
    let before : List Text := match context with
      | none => []
      | some c => c.text :: ((c.mark.filter (· != mark)).map (Mark.text name)).toList
    Text.join "\n" (before ++ [problem, mark.text name])
  | .unacceptable code index =>
    "unacceptable character #x" ++ Text.padZeros 4 (Nat.toDigits 16 code) ++
      ": special characters are not allowed\n  in \"" ++ name ++ "\", position " ++ Text.ofNat index
  | .fault cause => cause.message

def failure (context : Text) (start : Mark) (problem : Text) (mark : Mark) : Failure :=
  .malformed (some ⟨context, some start⟩) problem mark

structure Cursor where
  rest : Text
  index : Nat
  line : Nat
  column : Nat
  deriving Repr, DecidableEq

def isBreak (c : Char) : Bool :=
  c == '\n' || c == '\r' || c == '\x85' || c == '\u2028' || c == '\u2029'

def endsLine (c : Option Char) : Bool := c.all isBreak

def endsWord (c : Option Char) : Bool := c.all fun c => c == ' ' || c == '\t' || isBreak c

namespace Cursor

def ofText (s : Text) : Cursor := ⟨s, 0, 0, 0⟩

def mark (c : Cursor) : Mark := ⟨c.line, c.column⟩

def peek (c : Cursor) : Option Char := c.rest.head?

def peekAt (c : Cursor) (n : Nat) : Option Char := c.rest[n]?

/-- The place after the next character. A byte order mark takes no column. -/
def next (c : Cursor) : Cursor :=
  match c.rest with
  | [] => c
  | ch :: rest =>
    if isBreak ch then ⟨rest, c.index + 1, c.line + 1, 0⟩
    else ⟨rest, c.index + 1, c.line, if ch = '\ufeff' then c.column else c.column + 1⟩

def skip : Nat → Cursor → Cursor
  | 0, c => c
  | n + 1, c => skip n c.next

def run (p : Char → Bool) (c : Cursor) : Text × Cursor :=
  let s := c.rest.takeWhile p
  (s, c.skip s.length)

def skipSpaces (c : Cursor) : Cursor := (c.run (· == ' ')).2

/-- The line end at a place as it is kept, if there is one: most kinds are a line feed. -/
def lineEnd (c : Cursor) : Text × Cursor :=
  match c.rest with
  | '\r' :: '\n' :: _ => (['\n'], c.next.next)
  | ch :: _ =>
    if ch = '\n' ∨ ch = '\r' ∨ ch = '\x85' then (['\n'], c.next)
    else if ch = '\u2028' ∨ ch = '\u2029' then ([ch], c.next)
    else ([], c)
  | [] => ([], c)

/-- The next character in quotes; the end of the file counts as a null. -/
def quoted (c : Cursor) : Text := Text.Quoted.encode [c.peek.getD '\x00']

def atSeparator (c : Cursor) : Bool :=
  let three := c.rest.take 3
  (three == ['-', '-', '-'] || three == ['.', '.', '.']) && endsWord (c.peekAt 3)

end Cursor
end Yaml
end Data
end Refit
