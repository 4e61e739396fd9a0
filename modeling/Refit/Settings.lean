/-
Settings from environment variables and from the lines of a settings file. Names are written in any
case, and the environment goes before the file.
-/
import Refit.Data.Pairs
import Refit.Number.Whole
import Refit.Objective.Store
import Refit.Settings.Variables

namespace Refit

structure Settings where
  /-- The most characters in a batch. -/
  batchLimit : Int
  objectivesPath : Text
  logLevel : Text
  deriving Repr, DecidableEq

namespace Settings

open Data (Pairs)

def default : Settings := ⟨20000, Objective.Store.defaultPath, "INFO"⟩

def leadingName : Text := "codesplice_"

def lower (s : Text) : Text := s.map Char.toLower

/-- The blanks that may stand around a number: all but the four separators of the control range. -/
def isNumberBlank (c : Char) : Bool := Text.isBlank c && !(0x1C ≤ c.toNat && c.toNat ≤ 0x1F)

def dropZeros : Text → Text
  | '0' :: c :: rest => dropZeros (c :: rest)
  | s => s

def lowsBetween (s : Text) : Bool :=
  (Text.splitOn '_' s).all fun part => !part.isEmpty

/-- A whole number may be written with zeros after a point. -/
def dropPlaces (s : Text) : Text :=
  let whole := s.takeWhile (· != '.')
  if (s.drop (whole.length + 1)).all (· == '0') then whole else s

def digitsOf (s : Text) : Option Text :=
  let s := dropPlaces s
  let s := if lowsBetween s then s.filter (· != '_') else s
  if s.isEmpty || !s.all Char.isDigit then none else some (dropZeros s)

/-- A signed whole number, with blanks around it allowed. A minus counts towards its length. -/
def number? (s : Text) : Except Fault Int :=
  let body := Text.trimEnd isNumberBlank (Text.trimStart isNumberBlank s)
  let (negative, unsigned) := match body with
    | '-' :: rest => (true, rest)
    | '+' :: rest => (false, rest)
    | _ => (false, body)
  match digitsOf unsigned with
  | none => .error .invalidSetting
  | some digits =>
    if Number.digitLimit < digits.length + (if negative then 1 else 0) then .error .invalidSetting
    else
      let n : Int := Text.digitsValue digits
      .ok (if negative then -n else n)

def byName {α : Type} (given : List (Text × α)) : Pairs Text α :=
  Pairs.ofList (given.map fun e => (lower e.1, e.2))

def read (environment : List (Text × Text)) (file : Text) : Except Fault Settings := do
  let fromFile := byName (variablesOf (Pairs.ofList environment) file)
  let fromEnvironment := byName environment
  let value (name : Text) : Option Text :=
    (fromEnvironment.get? (leadingName ++ name)).or (fromFile.get? (leadingName ++ name)).join
  let batchLimit ← match value "batch_char_limit" with
    | some s => number? s
    | none => .ok default.batchLimit
  return ⟨batchLimit, (value "objectives_path").getD default.objectivesPath,
    (value "log_level").getD default.logLevel⟩

end Settings
end Refit
