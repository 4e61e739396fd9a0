/-
The groups that batches are filled from.

Each container leads a group of the members it owns, in input order; the members that no container
owns form a last group. A container owns the members inside its span that no shorter container holds.
-/
import Refit.Block
import Refit.Data.Least
import Refit.Data.Placed

namespace Refit
namespace Plan

/-- Blocks are told apart by their places in the input. -/
abbrev Item := Data.Placed Block

namespace Item

def size (i : Item) : Nat := i.item.size

def span (i : Item) : Span := i.item.span

def isContainer (i : Item) : Bool := i.item.isContainer

def hasFindings (i : Item) : Bool := i.item.hasFindings

end Item

def totalSize (items : List Item) : Nat := (items.map Item.size).foldr (· + ·) 0

/-- The shortest container whose span holds `m`, the earlier of two that are equally short. -/
def owner? (containers : List Item) (m : Item) : Option Item :=
  Data.least? (fun a b => a.span.length < b.span.length)
    (containers.filter fun c => c.span.contains m.span)

structure Group where
  container : Option Item
  /-- The members still to be sent, in order. -/
  queue : List Item
  /-- Whether the container has findings of its own that have not been sent. -/
  owed : Bool
  deriving Repr, DecidableEq

namespace Group

def headerSize (g : Group) : Nat := (g.container.map Item.size).getD 0

def pending (g : Group) : Bool := !g.queue.isEmpty || g.owed

def label (g : Group) : Text :=
  match g.container with
  | none => "unowned blocks"
  | some c => "container starting at line " ++ Text.ofNat c.span.start

end Group

def containers (items : List Item) : List Item := items.filter Item.isContainer

def members (budget : Nat) (items : List Item) : List Item :=
  items.filter fun i => !i.isContainer && i.size ≤ budget

/-- The blocks that have something to send and exceed the budget alone, containers first. -/
def tooLarge (budget : Nat) (items : List Item) : List Item :=
  (items.filter fun i => i.isContainer && i.hasFindings && budget < i.size) ++
    items.filter fun i => !i.isContainer && budget < i.size

def ownedBy (items : List Item) (c m : Item) : Bool :=
  (owner? (containers items) m).any fun o => o.place == c.place

def unowned (items : List Item) (m : Item) : Bool := (owner? (containers items) m).isNone

def containerGroup (budget : Nat) (items : List Item) (c : Item) : Group :=
  ⟨some c, (members budget items).filter (ownedBy items c), c.hasFindings && c.size ≤ budget⟩

def unownedGroup (budget : Nat) (items : List Item) : List Group :=
  let queue := (members budget items).filter (unowned items)
  if queue.isEmpty then [] else [⟨none, queue, false⟩]

def groups (budget : Nat) (items : List Item) : List Group :=
  (containers items).map (containerGroup budget items) ++ unownedGroup budget items

end Plan
end Refit
