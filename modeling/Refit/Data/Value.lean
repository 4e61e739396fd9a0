/-
The values of structured documents: what a configuration file, a request document or the extra
fields of a log line can hold.
-/
import Refit.Data.Stamp
import Refit.Number.Decimal

namespace Refit
namespace Data

open Number (Binary64)

inductive Value where
  | null
  | bool (b : Bool)
  | int (n : Int)
  | float (x : Binary64)
  | text (s : Text)
  | stamp (s : Stamp)
  | list (items : List Value)
  /-- Entries in document order. A key is a value of its own: a file may use numbers as keys. -/
  | map (entries : List (Value × Value))
  deriving Repr

namespace Value

instance : Inhabited Value := ⟨.null⟩

def object (fields : List (Text × Value)) : Value := .map (fields.map fun f => (.text f.1, f.2))

def isText (s : Text) : Value → Bool
  | .text t => t == s
  | _ => false

def field? (key : Text) : Value → Option Value
  | .map entries => (entries.find? fun e => e.1.isText key).map Prod.snd
  | _ => none

/-- Values that count as nothing given: null, false, zero and whatever is empty. -/
def isVacant : Value → Bool
  | .null => true
  | .bool b => !b
  | .int n => n == 0
  | .float x => x.isZero
  | .text s => s.isEmpty
  | .stamp _ => false
  | .list items => items.isEmpty
  | .map entries => entries.isEmpty

end Value
end Data
end Refit
