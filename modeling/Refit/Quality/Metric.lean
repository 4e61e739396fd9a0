/-
Metrics read back from a summary: the first number after the word "has" in the lines of findings.
-/
import Refit.Data.Pairs
import Refit.Number.Decimal
import Refit.Number.Whole
import Refit.Text.Search

namespace Refit
namespace Quality

open Text

def numberAfterSpace? : Text → Option (Text × Text)
  | [] => none
  | [_] => none
  | c :: d :: s =>
    if c = ' ' ∧ isDigit d then some ((d :: s).takeWhile isDigit, (d :: s).dropWhile isDigit)
    else numberAfterSpace? (d :: s)

def measure? (line : Text) : Option (Text × Text) :=
  match cut? " has " line with
  | some (_, rest) => numberAfterSpace? rest
  | none => none

/-- A line of a finding, from its dash to its number, read for the rule and the digits. -/
def metric : Recogniser (Text × Text) := fun _ s =>
  match after? "- " s with
  | none => none
  | some s' =>
    let rule := s'.takeWhile isWord
    if rule.isEmpty then none
    else match after? ": " (s'.dropWhile isWord) with
      | none => none
      | some rest =>
        let line := rest.takeWhile (· != '\n')
        (measure? line).map fun r =>
          (s.length - (rest.length - (line.length - r.2.length)), (rule, r.1))

/-- Adds the values one after the other, up to the first that has too many digits. -/
def addMetrics : List (Text × Text) → Data.Pairs Text (List Nat) →
    Except Fault (Data.Pairs Text (List Nat))
  | [], m => .ok m
  | (rule, digits) :: rest, m => do
    let n ← Number.ofDigits digits
    addMetrics rest (m.alter rule fun old => old.getD [] ++ [n])

def metrics (summary : Text) : Except Fault (Data.Pairs Text (List Nat)) :=
  addMetrics ((hits metric summary).map Hit.value) []

def statistics (values : List Nat) : Except Fault Text :=
  match Number.Binary64.nearest? (values.foldr (· + ·) 0) values.length with
  | none => .error .numberOutOfRange
  | some (m, e) =>
    .ok ("Average: " ++ Number.Decimal.twoPlaces m e ++ ", Max: " ++
      Text.ofNat (values.foldl max 0))

def totalKey : Text := "Total Methods"

/-- The statistics of each rule, and at last the length of the longest list of values. -/
def summarizeMetrics (summary : Text) : Except Fault (Data.Pairs Text Text) := do
  let found ← metrics summary
  let lines ← found.mapM fun e => return (e.1, ← statistics e.2)
  let longest := (found.map fun e => e.2.length).foldl max 0
  return Data.Pairs.put lines totalKey (Text.ofNat longest)

end Quality
end Refit
