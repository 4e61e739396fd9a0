/-
Two analyzer runs on one file compared by the number of their findings.
-/
import Refit.Finding
import Refit.Journal

namespace Refit
namespace Quality

structure Comparison where
  before : Nat
  after : Nat
  deriving Repr, DecidableEq

namespace Comparison

def of (before after : List Finding) : Comparison := ⟨before.length, after.length⟩

/-- Positive where findings were removed. -/
def delta (c : Comparison) : Int := (c.before : Int) - c.after

def issuesFixed (c : Comparison) : Bool := c.after < c.before

def message (c : Comparison) : Text :=
  if c.after < c.before then
    "LLM response fixed " ++ Text.ofNat (c.before - c.after) ++ " issue(s)!"
  else if c.after = c.before then "LLM response didn't affect analyzer issues."
  else "LLM response introduced " ++ Text.ofNat (c.after - c.before) ++ " new issue(s)!"

def entries (c : Comparison) : List Entry :=
  [⟨.info, .quality, "Original violations: " ++ Text.ofNat c.before⟩,
   ⟨.info, .quality, "Processed violations: " ++ Text.ofNat c.after⟩,
   ⟨if c.before < c.after then .warning else .info, .quality, c.message⟩]

def logged (before after : List Finding) : Logged Comparison :=
  let c := of before after
  .leaving c.entries c

end Comparison
end Quality
end Refit
