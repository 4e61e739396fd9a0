/-
What the words of a YAML file stand for. The shape of an unquoted word gives its kind, and the kind
how it is read; a word with the shape of a number or a date may still be none.
-/
import Refit.Data.Json
import Refit.Data.Value
import Refit.Data.Yaml.Cursor
import Refit.Number.Whole

namespace Refit
namespace Data
namespace Yaml

open Json (isAsciiDigit hexValue?)
open Number (Binary64)

inductive Kind where
  | text
  | bool
  | float
  | int
  /-- The key whose value is merged into its mapping. -/
  | merge
  | null
  | stamp
  /-- The key that stands for itself, and as a value for nothing. -/
  | equals
  | sequence
  | mapping
  /-- A kind that is given by name and that nothing is known of. -/
  | other (name : Text)
  deriving Repr, DecidableEq

def kindLead : Text := "tag:yaml.org,2002:"

def kindNames : List (Text × Kind) :=
  [("str", .text), ("bool", .bool), ("float", .float), ("int", .int), ("merge", .merge),
   ("null", .null), ("timestamp", .stamp), ("value", .equals), ("seq", .sequence), ("map", .mapping)]

def Kind.ofName (name : Text) : Kind :=
  match kindNames.find? fun e => kindLead ++ e.1 == name with
  | some e => e.2
  | none => .other name

def Kind.name : Kind → Text
  | .other name => name
  | k => ((kindNames.find? fun e => e.2 == k).map fun e => kindLead ++ e.1).getD []

/-! ### Shapes -/

def truths : List Text := ["yes", "Yes", "YES", "true", "True", "TRUE", "on", "On", "ON"]

def falsehoods : List Text := ["no", "No", "NO", "false", "False", "FALSE", "off", "Off", "OFF"]

def nulls : List Text := ["~", "null", "Null", "NULL", ""]

def infinities : List Text := [".inf", ".Inf", ".INF"]

def notNumbers : List Text := [".nan", ".NaN", ".NAN"]

def sign (s : Text) : Bool × Text :=
  match s with
  | '-' :: rest => (true, rest)
  | '+' :: rest => (false, rest)
  | _ => (false, s)

def signed (negative : Bool) (n : Nat) : Int := if negative then -(n : Int) else n

def dropLows (s : Text) : Text := s.filter (· != '_')

def isDigitOrLow (c : Char) : Bool := isAsciiDigit c || c == '_'

def isRun (p : Char → Bool) (s : Text) : Bool := !s.isEmpty && s.all p

/-- Whether `s` is a digit and more digits, with low lines between them. -/
def isDigits (s : Text) : Bool := s.head?.any isAsciiDigit && s.all isDigitOrLow

/-- Whether `s` can be a place after a colon: at most 59. -/
def isSixtieth : Text → Bool
  | [a] => isAsciiDigit a
  | [a, b] => '0' ≤ a && a ≤ '5' && isAsciiDigit b
  | _ => false

def power? : Text → Option Int
  | [] => some 0
  | e :: s :: digits =>
    if (e = 'e' ∨ e = 'E') ∧ (s = '+' ∨ s = '-') ∧ isRun isAsciiDigit digits then
      some (signed (s == '-') (Text.digitsValue digits))
    else none
  | _ => none

def atPoint? (s : Text) : Option (Text × Text) :=
  match s.dropWhile (· != '.') with
  | '.' :: rest => some (s.takeWhile (· != '.'), rest)
  | _ => none

def arePlaces (s : Text) : Bool := (power? (s.dropWhile isDigitOrLow)).isSome

def isPointNumber (s : Text) : Bool :=
  match atPoint? (sign s).2 with
  | some ([], places) => (sign s).2 == s && places.head?.any isAsciiDigit && arePlaces places
  | some (whole, places) => isDigits whole && arePlaces places
  | none => false

def isPointSixties (s : Text) : Bool :=
  match atPoint? (sign s).2 with
  | some (whole, places) =>
    match Text.splitOn ':' whole with
    | first :: place :: more =>
      isDigits first && (place :: more).all isSixtieth && places.all isDigitOrLow
    | _ => false
  | none => false

def isFloat (s : Text) : Bool :=
  isPointNumber s || isPointSixties s || infinities.contains (sign s).2 || notNumbers.contains s

/-- Whether `s` is a whole number: binary, octal, hexadecimal, decimal or in base sixty. -/
def isInt (s : Text) : Bool :=
  match (sign s).2 with
  | ['0'] => true
  | '0' :: 'b' :: digits => isRun (fun c => c == '0' || c == '1' || c == '_') digits
  | '0' :: 'x' :: digits => isRun (fun c => (hexValue? c).isSome || c == '_') digits
  | '0' :: digits => isRun (fun c => ('0' ≤ c && c ≤ '7') || c == '_') digits
  | body =>
    match Text.splitOn ':' body with
    | first :: places => isDigits first && places.all isSixtieth
    | [] => false

/-! ### Dates -/

def digits? (least most : Nat) (s : Text) : Option (Nat × Text) :=
  let run := s.takeWhile isAsciiDigit
  if least ≤ run.length ∧ run.length ≤ most then
    some (Text.digitsValue run, s.drop run.length)
  else none

def after? (c : Char) : Text → Option Text
  | d :: rest => if c = d then some rest else none
  | [] => none

/-- A zone after a time: none, the zone of no offset, or hours and minutes with a sign. -/
def zone? (s : Text) : Option (Option Int) :=
  if s.isEmpty then some none
  else
    match s.dropWhile Text.isGap with
    | ['Z'] => some (some 0)
    | c :: rest =>
      if c ≠ '+' ∧ c ≠ '-' then none
      else do
        let (hours, rest) ← digits? 1 2 rest
        let minutes ← match rest with
          | [] => some 0
          | ':' :: rest =>
            match digits? 2 2 rest with
            | some (n, []) => some n
            | _ => none
          | _ => none
        some (some (signed (c == '-') (60 * hours + minutes)))
    | [] => none

/-- A time after a date: a letter or white space, the time, a fraction and a zone. Of the fraction the
first six digits count. -/
def clock? (s : Text) : Option Clock := do
  let body ← match s with
    | 'T' :: rest => some rest
    | 't' :: rest => some rest
    | c :: _ => if Text.isGap c then some (s.dropWhile Text.isGap) else none
    | [] => none
  let (hour, s) ← digits? 1 2 body
  let (minute, s) ← digits? 2 2 (← after? ':' s)
  let (second, s) ← digits? 2 2 (← after? ':' s)
  let (fraction, s) : Text × Text := match s with
    | '.' :: rest => (rest.takeWhile isAsciiDigit, rest.dropWhile isAsciiDigit)
    | _ => ([], s)
  let micro := Text.digitsValue ((fraction ++ List.replicate 6 '0').take 6)
  some ⟨hour, minute, second, micro, ← zone? s⟩

def stamp? (s : Text) : Option Stamp := do
  let (year, s) ← digits? 4 4 s
  let (month, t) ← digits? 1 2 (← after? '-' s)
  let (day, t) ← digits? 1 2 (← after? '-' t)
  if t.isEmpty then if s.length = 6 then some ⟨⟨year, month, day⟩, none⟩ else none
  else some ⟨⟨year, month, day⟩, some (← clock? t)⟩

def kindOf (s : Text) : Kind :=
  if truths.contains s || falsehoods.contains s then .bool
  else if isFloat s then .float
  else if isInt s then .int
  else if s = "<<".toList then .merge
  else if nulls.contains s then .null
  else if (stamp? s).isSome then .stamp
  else if s = "=".toList then .equals
  else .text

/-! ### Values -/

def inBase (base : Nat) (digits : Text) : Nat :=
  digits.foldl (fun n c => base * n + (hexValue? c).getD 0) 0

def decimal (digits : Text) : Except Fault Nat :=
  if digits.isEmpty || !digits.all isAsciiDigit then .error .invalidNumber
  else Number.ofDigits digits

/-- A number in a base after its mark, which needs a digit. -/
def marked (base : Nat) (digits : Text) : Except Fault Nat :=
  if digits.isEmpty then .error .invalidNumber else .ok (inBase base digits)

def intOf (s : Text) : Except Fault Int := do
  let (negative, body) := sign (dropLows s)
  let n ← match body with
    | ['0'] => pure 0
    | '0' :: 'b' :: digits => marked 2 digits
    | '0' :: 'x' :: digits => marked 16 digits
    | '0' :: digits =>
      if digits.all fun c => '0' ≤ c && c ≤ '7' then pure (inBase 8 digits) else .error .invalidNumber
    | _ => do
      let places ← (Text.splitOn ':' body).mapM decimal
      pure (places.foldl (fun n p => 60 * n + p) 0)
  return signed negative n

def decimalDigits (body : Text) : Nat × Int :=
  let whole := body.takeWhile isAsciiDigit
  let rest := body.drop whole.length
  let places : Text := match rest with
    | '.' :: rest => rest.takeWhile isAsciiDigit
    | _ => []
  let exponent := sign ((rest.dropWhile fun c => c != 'e' && c != 'E').drop 1)
  (Text.digitsValue (whole ++ places), signed exponent.1 (Text.digitsValue exponent.2) - places.length)

def finite? : Binary64 → Option (Nat × Nat)
  | .finite _ m e => some (Binary64.fraction m e)
  | _ => none

/-- The sum of places in base sixty, the last place first, each product and each sum rounded; `sum` is
nothing once it is past the range of numbers. -/
def sumSixties (base : Nat) (sum : Option (Nat × Nat)) :
    List (Option (Nat × Nat)) → Except Fault (Option (Nat × Nat))
  | [] => .ok sum
  | place :: places =>
    match Binary64.rounded? base 1 with
    | none => .error .numberOutOfRange
    | some b =>
      let product := place.bind fun p => Binary64.rounded? (p.1 * b.1) (p.2 * b.2)
      let sum := do
        let x ← sum
        let y ← product
        Binary64.rounded? (x.1 * y.2 + y.1 * x.2) (x.2 * y.2)
      sumSixties (60 * base) sum places

def floatOf (s : Text) : Except Fault Binary64 := do
  let (negative, body) := sign (dropLows s)
  if notNumbers.contains body then return .nan
  else if infinities.contains body then return .infinite negative
  else match Text.splitOn ':' body with
    | [one] =>
      let d := decimalDigits one
      return .ofDecimal negative d.1 d.2
    | places =>
      let numbers := places.reverse.map fun p =>
        finite? (.ofDecimal false (decimalDigits p).1 (decimalDigits p).2)
      match ← sumSixties 1 (some (0, 1)) numbers with
      | some x => return .ofFraction negative x.1 x.2
      | none => return .infinite negative

/-- A decimal number with a point or without, and a power of ten with a sign or without. -/
def isDecimal (s : Text) : Bool :=
  let body := (sign (dropLows s)).2
  let whole := body.takeWhile isAsciiDigit
  let rest := body.drop whole.length
  let (places, power) : Text × Text := match rest with
    | '.' :: rest => (rest.takeWhile isAsciiDigit, rest.dropWhile isAsciiDigit)
    | _ => ([], rest)
  !(whole ++ places).isEmpty && match power with
    | [] => true
    | e :: exponent => (e == 'e' || e == 'E') && isRun isAsciiDigit (sign exponent).2

def lower (s : Text) : Text := s.map Char.toLower

/-- The value of a word of a kind, which may have been given to it by name; a kind that is no kind of
word leaves it a text. -/
def wordValue (kind : Kind) (s : Text) : Except Fault Value :=
  match kind with
  | .bool =>
    if truths.contains (lower s) then .ok (.bool true)
    else if falsehoods.contains (lower s) then .ok (.bool false)
    else .error .missingEntry
  | .float => do
    let x ← if isFloat s || isDecimal s then floatOf s else .error .invalidNumber
    return .float x
  | .int => do
    let n ← if isInt s || isDigits s then intOf s else .error .invalidNumber
    return .int n
  | .null => .ok .null
  | .stamp =>
    match stamp? s with
    | none => .error .missingPart
    | some t => if t.isValid then .ok (.stamp t) else .error .invalidNumber
  | _ => .ok (.text s)

end Yaml
end Data
end Refit
