/-
A finding: one thing an analyzer says about one line.
-/
import Refit.Fault

namespace Refit

structure Finding where
  line : Nat
  rule : Text
  message : Text
  line_pos : 1 ≤ line
  deriving Repr, DecidableEq

namespace Finding

/-- The finding at a given line number, which may be any integer. -/
def of (line : Int) (rule message : Text) : Except Fault Finding :=
  if h : 1 ≤ line then .ok ⟨line.toNat, rule, message, by omega⟩
  else .error (.invalidFinding line)

end Finding
end Refit
