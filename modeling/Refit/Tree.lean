/-
Ordered trees and their walk in document order.
-/

namespace Refit

inductive Tree (α : Type) where
  | node (label : α) (children : List (Tree α))
  deriving Repr

namespace Tree

variable {α : Type}

def label : Tree α → α
  | .node a _ => a

def children : Tree α → List (Tree α)
  | .node _ ts => ts

mutual

def size : Tree α → Nat
  | .node _ ts => sizeAll ts + 1

def sizeAll : List (Tree α) → Nat
  | [] => 0
  | t :: ts => size t + sizeAll ts

end

/-- Visits at most `fuel` nodes. The trees still to be visited stand on a stack, and a visited node
gives way to its children. -/
def walkFrom : Nat → List (Tree α) → List α
  | 0, _ => []
  | _, [] => []
  | fuel + 1, .node a ts :: stack => a :: walkFrom fuel (ts ++ stack)

def walk (t : Tree α) : List α := walkFrom t.size [t]

/-! ### Growing a tree in place

A node is known by the positions of the children that lead to it. Its path stays the same while other
nodes get children, since these are only ever appended. -/

def childCount : List Nat → Tree α → Nat
  | [], .node _ ts => ts.length
  | i :: path, .node _ ts => (ts[i]?.map (childCount path)).getD 0

def appendAt (us : List (Tree α)) : List Nat → Tree α → Tree α
  | [], .node a ts => .node a (ts ++ us)
  | i :: path, .node a ts => .node a (ts.modify i (appendAt us path))

end Tree
end Refit
