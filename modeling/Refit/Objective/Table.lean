/-
Tables of refactoring objectives: an instruction for every request, and an objective for each rule.
-/
import Refit.Data.Display
import Refit.Data.Pairs

namespace Refit
namespace Objective

open Data (Pairs Value)

structure Table where
  instruction : Text
  objectives : Pairs Text Text
  deriving Repr, DecidableEq

def defaultInstruction : Text :=
  "Refactor the provided Java code blocks to resolve the listed issues. " ++
    "Return each rewritten method in full, keeping its name and signature. " ++
    "New helper methods may be added; do not return unchanged code."

/-- The rule under which the objective of all other rules stands. -/
def defaultRule : Text := "default"

def generalObjective : Text :=
  "Refactor this code to improve maintainability and reduce complexity while ensuring correctness."

def defaultObjectives : Pairs Text Text :=
  [(defaultRule, generalObjective),
   ("CyclomaticComplexity",
    "Reduce branching and split complex logic into smaller, reusable methods while preserving functionality."),
   ("CognitiveComplexity",
    "Refactor deeply nested structures, simplify conditions, and improve readability while maintaining correctness."),
   ("NPathComplexity",
    "Reduce execution paths by simplifying conditionals and avoiding redundant logic without altering behavior."),
   ("ExcessivePublicCount",
    "Consider reducing the number of public methods by encapsulating logic within private methods where possible.")]

namespace Table

def default : Table := ⟨defaultInstruction, defaultObjectives⟩

def objective (t : Table) (rule : Text) : Text :=
  match t.objectives.get? rule with
  | some text => text
  | none => (t.objectives.get? defaultRule).getD generalObjective

def sortRules (rules : List Text) : List Text :=
  (rules.mergeSort Text.noLater).eraseDups

/-- The objective of several rules: the different objectives of the rules in order, or the default if
there are no rules. -/
def combined (t : Table) (rules : List Text) : Text :=
  if rules.isEmpty then t.objective defaultRule
  else Text.join " " ((sortRules rules).map t.objective).eraseDups

def objectivesOf (entries : List (Value × Value)) : Except Fault (Pairs Text Text) := do
  let given ← entries.mapM fun e => do
    return (← Data.Display.text? e.1, Text.trim (← Data.Display.text? e.2))
  return Pairs.ofList given

def instructionOf : Option Value → Except Fault Text
  | none => .ok defaultInstruction
  | some v =>
    if v.isVacant then .ok defaultInstruction
    else do return Text.trim (← Data.Display.text? v)

/-- The table that a file describes: its objectives over the default ones, and its instruction if it
gives one. A file without objectives describes none. -/
def ofDocument? (document : Value) : Except Fault (Option Table) :=
  match document.field? "objectives" with
  | some (.map entries) => do
    let given ← objectivesOf entries
    let instruction ← instructionOf (document.field? "instruction")
    return some ⟨instruction, Pairs.update defaultObjectives given⟩
  | _ => .ok none

end Table
end Objective
end Refit
