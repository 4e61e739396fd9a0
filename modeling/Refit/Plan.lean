/-
Plans: blocks packed into batches whose sizes stay within a budget.

A block that exceeds the budget alone is skipped. All others are sent container by container, and the
members of one container stay in order.
-/
import Refit.Journal
import Refit.Plan.Pass

namespace Refit

structure Plan where
  budget : Nat
  oversize : List Plan.Item
  run : Plan.Run
  deriving Repr, DecidableEq

namespace Plan

def make (blocks : List Block) (budget : Int) : Except Fault Plan :=
  if budget ≤ 0 then .error (.invalidBudget budget)
  else
    let limit := budget.toNat
    let items := Data.Placed.list blocks
    let gs := groups limit items
    .ok ⟨limit, tooLarge limit items, fillAll limit (work gs) gs⟩

def batches (p : Plan) : List (List Item) := p.run.passes.map Pass.blocks

def skipped (p : Plan) : List Item := p.oversize ++ p.run.stranded.getD []

def allBlocks (p : Plan) : List Item := p.batches.flatten ++ p.skipped

def advisory (p : Plan) : Text :=
  let count := p.batches.length
  let left := p.skipped.length
  let limit := Text.ofNat p.budget
  if count = 0 then
    if left = 0 then "No code blocks were found to process."
    else
      let noun : Text := if left = 1 then " block exceeds" else " blocks exceed"
      "Unable to process your code: all " ++ Text.ofNat left ++ noun ++ " the size limit of " ++
        limit ++ " characters."
  else
    let noun : Text := if count = 1 then " batch" else " batches"
    let rest : Text :=
      if left = 0 then []
      else
        let noun : Text := if left = 1 then " block was" else " blocks were"
        "\n" ++ Text.ofNat left ++ noun ++ " too large to process and skipped."
    "Your code was split into " ++ Text.ofNat count ++ noun ++ " to stay within the size limit of " ++
      limit ++ " characters.\nAll detected issues that fit will be sent for refactoring." ++ rest

/-! ### Journal -/

def oversizeEntry (i : Item) : Entry :=
  ⟨.warning, .planning,
    "Block too large to send (startLine: " ++ Text.ofNat i.span.start ++ ", type: " ++
      i.item.kind.name ++ "). It will be skipped."⟩

def Visit.entries (budget : Nat) (v : Visit) : List Entry :=
  let outcome : List Entry := match v.outcome with
    | .run ms =>
      [⟨.info, .planning,
        "Added " ++ v.group.label ++ " with " ++ Text.ofNat ms.length ++ " block(s) to batch"⟩]
    | .lone m =>
      [⟨.warning, .planning,
        "Sending block at line " ++ Text.ofNat m.span.start ++
          " without its container summary; together they exceed " ++ Text.ofNat budget ++ " chars"⟩]
    | _ => []
  let waiting : List Entry :=
    if v.outcome = .idle ∨ v.group.queue.isEmpty then []
    else [⟨.warning, .planning,
      "Deferring " ++ Text.ofNat v.group.queue.length ++ " remaining block(s) for " ++
        v.group.label⟩]
  outcome ++ waiting

def Pass.entries (budget number : Nat) (p : Pass) : List Entry :=
  p.flatMap (Visit.entries budget) ++
    [⟨.info, .planning,
      "Created batch " ++ Text.ofNat number ++ " with approx. " ++ Text.ofNat (Pass.cost p) ++
        " chars"⟩]

/-- The journal of a plan, read off what its passes did. -/
def entries (p : Plan) : List Entry :=
  p.oversize.map oversizeEntry ++
    (p.run.passes.zipIdx 1).flatMap (fun e => Pass.entries p.budget e.2 e.1) ++
    (match p.run.stranded with
      | none => []
      | some left => [⟨.warning, .planning,
        "Unable to add any blocks to a batch; moving " ++ Text.ofNat left.length ++
          " block(s) to skipped"⟩])

def logged (blocks : List Block) (budget : Int) : Logged Plan := do
  let p ← .ofExcept (make blocks budget)
  .leaving p.entries p

end Plan
end Refit
