/-
Reports of a line-oriented analyzer.

A line `path:line: rule: message` gives a finding. Blank lines say nothing. Any other line, and a
line that points before line one, is passed over with a warning, so a bad line costs only itself. A
line number with more digits than are read ends the reading.
-/
import Refit.Data.Pairs
import Refit.Finding
import Refit.Journal
import Refit.Number.Whole

namespace Refit
namespace Report

structure Remark where
  digits : Text
  rule : Text
  message : Text
  deriving Repr, DecidableEq

def isRuleChar (c : Char) : Bool := Text.isWord c || c == '-'

def message? (digits rule s : Text) : Option Remark :=
  let message := Text.trim s
  if message.isEmpty then none else some ⟨digits, rule, message⟩

def rule? (digits s : Text) : Option Remark :=
  let s := Text.trimStart Text.isBlank s
  let rule := s.takeWhile isRuleChar
  if rule.isEmpty then none
  else match s.dropWhile isRuleChar with
    | ':' :: rest => message? digits rule rest
    | _ => none

/-- A colon, a line number, a colon, a rule, a colon and a message. -/
def remark? : Text → Option Remark
  | ':' :: s =>
    let digits := s.takeWhile Text.isDigit
    if digits.isEmpty then none
    else match s.dropWhile Text.isDigit with
      | ':' :: rest => rule? digits rest
      | _ => none
  | _ => none

/-- The shortest path, of at least one character, that a remark follows. -/
def split? : Text → Option (Text × Remark)
  | [] => none
  | c :: s =>
    match remark? s with
    | some r => some ([c], r)
    | none => (split? s).map fun p => (c :: p.1, p.2)

/-- What a line says. Lines that say nothing usable are kept without the blanks around them. -/
inductive Line where
  | blank
  | finding (path : Text) (f : Finding)
  | unrecognised (text : Text)
  | misplaced (text : Text) (line : Int)
  | overlong
  deriving Repr, DecidableEq

def readRemark (text path : Text) (r : Remark) : Line :=
  match Number.ofDigits r.digits with
  | .error _ => .overlong
  | .ok n =>
    match Finding.of n r.rule r.message with
    | .ok f => .finding path f
    | .error _ => .misplaced text n

def readLine (raw : Text) : Line :=
  let text := Text.trim raw
  if text.isEmpty then .blank
  else match split? text with
    | some (path, r) => readRemark text path r
    | none => .unrecognised text

def read (report : Text) : List Line := (Text.reportLines report).map readLine

def Line.entries : Line → List Entry
  | .unrecognised text =>
    [⟨.warning, .findings, "Skipping unrecognized analyzer line: " ++ text⟩]
  | .misplaced text line =>
    [⟨.warning, .findings, "Skipping invalid finding entry '" ++ text ++ "': " ++
      (Fault.invalidFinding line).message⟩]
  | _ => []

def collect : List Line → Logged (List (Text × Finding))
  | [] => pure []
  | .overlong :: _ => .fail .tooManyDigits
  | .finding path f :: lines => do
    let found ← collect lines
    pure ((path, f) :: found)
  | line :: lines => do
    .notes line.entries
    collect lines

def findings (report : Text) : Logged (List Finding) := do
  let found ← collect (read report)
  .note ⟨.info, .findings,
    "Extracted " ++ Text.ofNat found.length ++ " findings from analyzer output"⟩
  pure (found.map Prod.snd)

def byPath (found : List (Text × Finding)) : Data.Pairs Text (List Finding) :=
  found.foldl (fun m e => m.alter e.1 fun old => old.getD [] ++ [e.2]) []

def findingsByFile (report : Text) : Logged (Data.Pairs Text (List Finding)) := do
  let found ← collect (read report)
  pure (byPath found)

end Report
end Refit
