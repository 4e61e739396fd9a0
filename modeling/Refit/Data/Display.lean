/-
Values as running text: the way a value of a file shows where a text is wanted.

Numbers with more digits than are written have no text, and neither has a value that holds one.
-/
import Refit.Data.Value
import Refit.Number.Whole
import Refit.Text.Quoted

namespace Refit
namespace Data
namespace Display

def numberNames : Number.Decimal.Names := ⟨"inf", "nan"⟩

mutual

/-- A value inside another one, where texts are quoted. -/
def nested : Value → Text
  | .null => "None"
  | .bool true => "True"
  | .bool false => "False"
  | .int n => Text.ofInt n
  | .float x => Number.Decimal.text numberNames x
  | .text s => Text.Quoted.encode s
  | .stamp s => s.call
  | .list vs => ['['] ++ nestedItems vs ++ [']']
  | .map es => ['\x7b'] ++ nestedEntries es ++ ['\x7d']

def nestedItems : List Value → Text
  | [] => []
  | [v] => nested v
  | v :: vs => nested v ++ ", " ++ nestedItems vs

def nestedEntries : List (Value × Value) → Text
  | [] => []
  | [(k, v)] => nested k ++ ": " ++ nested v
  | (k, v) :: es => nested k ++ ": " ++ nested v ++ ", " ++ nestedEntries es

end

def text : Value → Text
  | .text s => s
  | .stamp s => s.text
  | v => nested v

mutual

def hasText : Value → Bool
  | .int n => Number.isWritable n
  | .list vs => haveText vs
  | .map es => entriesHaveText es
  | _ => true

def haveText : List Value → Bool
  | [] => true
  | v :: vs => hasText v && haveText vs

def entriesHaveText : List (Value × Value) → Bool
  | [] => true
  | (k, v) :: es => hasText k && hasText v && entriesHaveText es

end

def text? (v : Value) : Except Fault Text :=
  if hasText v then .ok (text v) else .error .tooManyDigits

end Display
end Data
end Refit
