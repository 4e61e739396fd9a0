/-
The smallest declaration around a line.
-/
import Refit.Data.Least
import Refit.Decl

namespace Refit
namespace Decl

/-- Of two declarations with equally many lines, the more specific kind wins. -/
def priority : Kind → Nat
  | .method => 0
  | .lambda => 1
  | .initializer => 2
  | .type => 3
  | .unknown => 4

def smaller (a b : Decl) : Bool :=
  a.stop - a.start < b.stop - b.start ||
    (a.stop - a.start == b.stop - b.start && priority a.kind < priority b.kind)

def encloses (line : Int) (d : Decl) : Bool :=
  d.kind != .unknown && d.start ≤ line && line ≤ d.stop

end Decl

/-- The smallest declaration around a line, the first in document order of those equally small. -/
def DeclTree.locate (t : DeclTree) (line : Int) : Option (Data.Placed Decl) :=
  Data.least? (fun a b => Decl.smaller a.item b.item)
    ((DeclTree.placed t).filter fun p => Decl.encloses line p.item)

end Refit
