/-
One pass over the groups fills one batch.

A group gives the longest run of its queue that fits in what the batch has left, under its container.
A member that fits a batch alone, but not together with its container, opens a batch without it. Every
visit to a group is kept, so what a pass did can be read off.
-/
import Refit.Plan.Group

namespace Refit
namespace Plan

inductive Outcome where
  /-- The group had nothing to send. -/
  | idle
  /-- The container, if there is one, and these members were added. -/
  | run (members : List Item)
  /-- This member was added without its container. -/
  | lone (member : Item)
  /-- Nothing of the group fits. -/
  | nothing
  deriving Repr, DecidableEq

structure Visit where
  outcome : Outcome
  /-- The group as the visit leaves it. -/
  group : Group
  /-- The characters added, as counted on the way. -/
  cost : Nat
  deriving Repr, DecidableEq

def Visit.blocks (v : Visit) : List Item :=
  match v.outcome with
  | .run ms => v.group.container.toList ++ ms
  | .lone m => [m]
  | _ => []

/-- A run of a queue, the rest of the queue, and the count at the end of the run. -/
structure Taken where
  members : List Item
  rest : List Item
  total : Nat
  deriving Repr, DecidableEq

/-- The longest run that fits in a batch of `used` characters, on top of the `total` counted before. -/
def takeRun (budget used : Nat) : Nat → List Item → Taken
  | total, [] => ⟨[], [], total⟩
  | total, m :: queue =>
    if used + total + m.size ≤ budget then
      let taken := takeRun budget used (total + m.size) queue
      ⟨m :: taken.members, taken.rest, taken.total⟩
    else ⟨[], m :: queue, total⟩

theorem takeRun_append (budget used total : Nat) (queue : List Item) :
    (takeRun budget used total queue).members ++ (takeRun budget used total queue).rest = queue := by
  induction queue generalizing total with
  | nil => rfl
  | cons m queue ih =>
    unfold takeRun
    split
    · simp [ih]
    · rfl

/-- The visit to a group when the batch holds `used` characters; `first` says that it holds no block. -/
def Group.visit (budget used : Nat) (first : Bool) (g : Group) : Visit :=
  if !g.pending then ⟨.idle, g, 0⟩
  else
    let taken := takeRun budget used g.headerSize g.queue
    if !taken.members.isEmpty || (g.owed && used + g.headerSize ≤ budget) then
      ⟨.run taken.members, ⟨g.container, taken.rest, false⟩, taken.total⟩
    else match first, g.queue with
      | true, m :: queue => ⟨.lone m, ⟨g.container, queue, g.owed⟩, m.size⟩
      | _, _ => ⟨.nothing, g, 0⟩

abbrev Pass := List Visit

def sweep (budget : Nat) : Nat → Bool → List Group → Pass
  | _, _, [] => []
  | used, first, g :: gs =>
    let v := g.visit budget used first
    v :: sweep budget (used + v.cost) (first && v.blocks.isEmpty) gs

namespace Pass

def blocks (p : Pass) : List Item := p.flatMap Visit.blocks

def cost (p : Pass) : Nat := (p.map Visit.cost).foldr (· + ·) 0

def groups (p : Pass) : List Group := p.map Visit.group

end Pass

/-- How many members and owed containers the groups still have to send. -/
def work (gs : List Group) : Nat :=
  (gs.map fun g => g.queue.length + if g.owed then 1 else 0).foldr (· + ·) 0

/-- What a run of passes comes to: the passes, and the queued members if the last one added nothing. -/
structure Run where
  passes : List Pass
  stranded : Option (List Item)
  deriving Repr, DecidableEq

/-- Passes until no group is pending, at most `fuel` of them. -/
def fillAll (budget : Nat) : Nat → List Group → Run
  | fuel, gs =>
    if gs.any Group.pending then
      match fuel with
      | 0 => ⟨[], some (gs.flatMap Group.queue)⟩
      | fuel + 1 =>
        let p := sweep budget 0 true gs
        if (Pass.blocks p).isEmpty then ⟨[], some (Pass.groups p |>.flatMap Group.queue)⟩
        else
          let rest := fillAll budget fuel (Pass.groups p)
          ⟨p :: rest.passes, rest.stranded⟩
    else ⟨[], none⟩

end Plan
end Refit
