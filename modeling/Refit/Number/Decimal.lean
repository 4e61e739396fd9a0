/-
Decimal texts of binary numbers: with a fixed number of places, and with the fewest digits that read
back as the same number.
-/
import Refit.Number.Binary64
import Refit.Text.Basic

namespace Refit
namespace Number
namespace Decimal

open Binary64

/-- `m * 2 ^ e` with two places, a half going to the even neighbour. -/
def twoPlaces (m : Nat) (e : Int) : Text :=
  let f := fraction m e
  let hundredths := roundDiv (f.1 * 100) f.2
  Text.ofNat (hundredths / 100) ++ "." ++ Text.padZeros 2 (Text.ofNat (hundredths % 100))

/-- Digits with a point before the last `places` of them; `point` keeps a point that nothing follows. -/
def withPoint (point : Bool) (places n : Nat) : Text :=
  let digits := Text.padZeros (places + 1) (Text.ofNat n)
  let whole := digits.length - places
  digits.take whole ++ (if places = 0 && !point then [] else '.' :: digits.drop whole)

def fixed (point : Bool) (places num den : Nat) : Text :=
  withPoint point places (roundDiv (num * Nat.pow 10 places) den)

structure Digits where
  digits : Nat
  exponent : Int
  deriving Repr, DecidableEq

/-- The power of ten of the leading digit of `num / den`, found among those a number can have. -/
def leadingPower (num den : Nat) : Int :=
  if den ≤ num then ((Text.ofNat (num / den)).length : Int) - 1
  else match (List.range 400).find? fun j => den ≤ num * Nat.pow 10 j with
    | some j => -(j : Int)
    | none => -400

def scaledTen (num den : Nat) (e : Int) : Nat × Nat :=
  if e < 0 then (num * Nat.pow 10 e.natAbs, den) else (num, den * Nat.pow 10 e.natAbs)

/-- `num / den` as a number with `places` places after its first digit, and the power of ten of that
digit. -/
def leading (places num den : Nat) : Nat × Int :=
  if num = 0 then (0, 0)
  else
    let power := leadingPower num den
    let f := scaledTen num den (power - places)
    let n := roundDiv f.1 f.2
    if n = Nat.pow 10 (places + 1) then (Nat.pow 10 places, power + 1) else (n, power)

def powerText (power : Int) : Text :=
  ['e'] ++ (if power < 0 then ['-'] else ['+']) ++ Text.padZeros 2 (Text.ofNat power.natAbs)

def scientific (point : Bool) (places num den : Nat) : Text :=
  let r := leading places num den
  withPoint point places r.1 ++ powerText r.2

def dropZeros (s : Text) : Text :=
  if s.contains '.' then Text.trimEnd (· == '.') (Text.trimEnd (· == '0') s) else s

/-- `num / den` with a number of significant digits: positional from the ten-thousandths up to that
many whole digits, with a power of ten beyond. Zeros at the end are left out unless `point`. -/
def general (point : Bool) (count num den : Nat) : Text :=
  let digits := max 1 count
  let r := leading (digits - 1) num den
  let tidy (s : Text) : Text := if point then s else dropZeros s
  if -4 ≤ r.2 ∧ r.2 < digits then
    tidy (fixed point ((digits : Int) - 1 - r.2).toNat num den)
  else tidy (withPoint point (digits - 1) r.1) ++ powerText r.2

/-- The decimal with `count` digits next to `m * 2 ^ e` that reads back as it: of the two neighbours
the nearer one that does. -/
def withDigits? (m : Nat) (e : Int) (count : Nat) : Option Digits :=
  let f := fraction m e
  let unit := leadingPower f.1 f.2 - (count : Int) + 1
  let s := scaledTen f.1 f.2 unit
  let low := s.1 / s.2
  let near := roundDiv s.1 s.2
  let far := if near = low then low + 1 else low
  let readsBack (d : Nat) : Bool := ofDecimal false d unit == .finite false m e
  if readsBack near then some ⟨near, unit⟩
  else if readsBack far then some ⟨far, unit⟩
  else none

/-- The fewest digits that read back as `m * 2 ^ e`; seventeen always do. -/
def shortest (m : Nat) (e : Int) : Digits :=
  ((List.range 17).findSome? fun n => withDigits? m e (n + 1)).getD ⟨m, 0⟩

/-- `digits` with the point after `place` of them, positional from the ten-thousandths up to sixteen
whole digits and with a power of ten beyond. -/
def placePoint (digits : Text) (place : Int) : Text :=
  if place < -3 ∨ 16 < place then
    let power := place - 1
    let tail := digits.drop 1
    digits.take 1 ++ (if tail.isEmpty then [] else '.' :: tail) ++ ['e'] ++
      (if power < 0 then ['-'] else ['+']) ++ Text.padZeros 2 (Text.ofNat power.natAbs)
  else if place ≤ 0 then
    "0." ++ List.replicate place.natAbs '0' ++ digits
  else if (digits.length : Int) ≤ place then
    digits ++ List.replicate (place.natAbs - digits.length) '0' ++ ".0"
  else digits.take place.natAbs ++ ['.'] ++ digits.drop place.natAbs

def shortestText (m : Nat) (e : Int) : Text :=
  if m = 0 then "0.0"
  else
    let d := shortest m e
    let all := Text.ofNat d.digits
    let significant := Text.trimEnd (· == '0') all
    placePoint significant (d.exponent + all.length)

structure Names where
  infinite : Text
  nan : Text

def text (names : Names) : Binary64 → Text
  | .finite negative m e => (if negative then ['-'] else []) ++ shortestText m e
  | .infinite negative => (if negative then ['-'] else []) ++ names.infinite
  | .nan => names.nan

end Decimal
end Number
end Refit
