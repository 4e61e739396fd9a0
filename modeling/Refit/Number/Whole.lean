/-
Whole numbers written in a text.
-/
import Refit.Fault

namespace Refit
namespace Number

/-- The most digits a number is read or written with, leading zeros counted. -/
def digitLimit : Nat := 4300

def ofDigits (digits : Text) : Except Fault Nat :=
  if digitLimit < digits.length then .error .tooManyDigits else .ok (Text.digitsValue digits)

def isWritable (n : Int) : Bool := n.natAbs < Nat.pow 10 digitLimit

end Number
end Refit
