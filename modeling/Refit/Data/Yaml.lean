/-
YAML files as values: the nodes of a file, with merged mappings written out, become the value that the
file stands for.

A file is read level by level, so of two faults the one nearer to the root is reported, and of two at
the same depth the first. Binary data, sets and ordered mappings have no value here, and a node is never
inside itself.
-/
import Refit.Data.Yaml.Node

namespace Refit
namespace Data
namespace Yaml

open Number (Binary64)

/-! ### Mappings -/

/-- A number as a fraction: truth values count as one and zero. -/
def fraction? : Value → Option (Int × Nat)
  | .bool b => some (if b then 1 else 0, 1)
  | .int n => some (n, 1)
  | .float (.finite negative m e) =>
    let f := Binary64.fraction m e
    some (signed negative f.1, f.2)
  | _ => none

/-- Whether two keys are one key. Numbers are compared by value. -/
def sameKey : Value → Value → Bool
  | .null, .null => true
  | .text s, .text t => s == t
  | .stamp s, .stamp t => s.same t
  | a, b =>
    match fraction? a, fraction? b, a, b with
    | some x, some y, _, _ => x.1 * y.2 == y.1 * x.2
    | none, none, .float x, .float y => x == y
    | _, _, _, _ => false

/-- Writes an entry: a present key keeps its place and gets the value. -/
def putEntry (k v : Value) : List (Value × Value) → List (Value × Value)
  | [] => [(k, v)]
  | (k', v') :: es => if sameKey k' k then (k', v) :: es else (k', v') :: putEntry k v es

def mapOf (entries : List (Value × Value)) : Value :=
  .map (entries.foldl (fun es e => putEntry e.1 e.2 es) [])

namespace Node

def form : Node → Text
  | .scalar .. => "scalar"
  | .sequence .. => "sequence"
  | .mapping .. => "mapping"

def isCollection : Node → Bool
  | .scalar .. => false
  | _ => true

def mappingContext : Text := "while constructing a mapping"

def asKey : Node → Node
  | .scalar .equals mark text => .scalar .text mark text
  | n => n

/-- The entries of a mapping with those of the mappings it merges in front of its own. -/
def flatten : Nat → Mark → List (Node × Node) → Except Failure (List (Node × Node))
  | 0, _, entries => .ok entries
  | fuel + 1, mark, entries => do
    let refused (expected : Text) (n : Node) : Failure :=
      failure mappingContext mark (expected ++ n.form) n.mark
    let merged ← (entries.filter fun e => e.1.kind == .merge).mapM fun e =>
      match e.2 with
      | .mapping _ m es => flatten fuel m es
      | .sequence _ _ items => do
        let parts ← items.mapM fun n =>
          match n with
          | .mapping _ m es => flatten fuel m es
          | _ => .error (refused "expected a mapping for merging, but found " n)
        return parts.reverse.flatten
      | n => .error (refused "expected a mapping or list of mappings for merging, but found " n)
    let own := (entries.filter fun e => e.1.kind != .merge).map fun e => (e.1.asKey, e.2)
    return merged.flatten ++ own

def check (n : Node) : Except Failure Unit :=
  let refused (problem : Text) : Except Failure Unit := .error (.malformed none problem n.mark)
  let unknown : Except Failure Unit :=
    refused ("could not determine a constructor for the tag " ++ Text.Quoted.encode n.kind.name)
  match n, n.kind with
  | _, .other _ => unknown
  | _, .merge => unknown
  | _, .equals => unknown
  | .sequence .., .sequence => .ok ()
  | .mapping .., .mapping => .ok ()
  | n, .sequence => refused ("expected a sequence node, but found " ++ n.form)
  | n, .mapping => refused ("expected a mapping node, but found " ++ n.form)
  | .scalar kind _ text, _ =>
    match wordValue kind text with
    | .ok _ => .ok ()
    | .error cause => .error (.fault cause)
  | n, _ => refused ("expected a scalar node, but found " ++ n.form)

/-- Checks the parts of a node, and gives those that have parts in turn. -/
def checkParts (fuel : Nat) : Node → Except Failure (List Node)
  | .scalar .. => .ok []
  | .sequence _ _ items => do
    items.forM check
    return items.filter isCollection
  | .mapping _ mark entries => do
    let entries ← flatten fuel mark entries
    entries.forM fun e => do
      check e.1
      if e.1.isCollection then throw (failure mappingContext mark "found unhashable key" e.1.mark)
      check e.2
    return (entries.map Prod.snd).filter isCollection

def checkBelow : Nat → List Node → Except Failure Unit
  | 0, _ => .ok ()
  | fuel + 1, level =>
    if level.isEmpty then .ok ()
    else do
      let parts ← level.mapM (checkParts (fuel + 1))
      checkBelow fuel parts.flatten

def value : Nat → Node → Value
  | 0, _ => .null
  | _ + 1, .scalar kind _ text => (wordValue kind text).toOption.getD .null
  | fuel + 1, .sequence _ _ items => .list (items.map (value fuel))
  | fuel + 1, .mapping _ mark entries =>
    let entries := (flatten fuel mark entries).toOption.getD []
    mapOf (entries.map fun e => (value fuel e.1, value fuel e.2))

end Node

/-! ### Files -/

def isForbidden (c : Char) : Bool :=
  let n := c.toNat
  (n < 0x20 && n != 9 && n != 10 && n != 13) || (0x7F ≤ n && n < 0xA0 && n != 0x85) ||
    (0xFFFE ≤ n && n < 0x10000)

/-- The value of a file; a file without a document stands for null. No node is deeper than the file is
long. -/
def parse (s : Text) : Except Failure Value :=
  match s.zipIdx.find? fun c => isForbidden c.1 with
  | some (c, index) => .error (.unacceptable c.toNat index)
  | none => do
    match ← Node.ofText? s with
    | none => return .null
    | some root =>
      let depth := s.length + 2
      root.check
      Node.checkBelow depth [root]
      return root.value depth

end Yaml
end Data
end Refit
