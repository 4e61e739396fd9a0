/-
Binary floating-point numbers of 64 bits, as exact fractions.

A finite number is a mantissa below 2 ^ 53 times a power of two. Rounding works on fractions of
natural numbers, so no step before the last one loses a digit.
-/

namespace Refit
namespace Number

/-- The natural number nearest to `num / den`; the even one of two that are equally near. -/
def roundDiv (num den : Nat) : Nat :=
  let q := num / den
  let r := num % den
  if 2 * r < den then q
  else if den < 2 * r then q + 1
  else if q % 2 = 0 then q else q + 1

inductive Binary64 where
  /-- `mantissa * 2 ^ exponent`, under its sign. -/
  | finite (negative : Bool) (mantissa : Nat) (exponent : Int)
  | infinite (negative : Bool)
  | nan
  deriving Repr, DecidableEq

namespace Binary64

def scaled (num den : Nat) (e : Int) : Nat × Nat :=
  if e < 0 then (num * Nat.pow 2 e.natAbs, den) else (num, den * Nat.pow 2 e.natAbs)

/-- Mantissa and exponent of the number nearest to `num / den`, or nothing past the range. The
exponent is the least that leaves 53 places, and never below that of the smallest number. -/
def nearest? (num den : Nat) : Option (Nat × Int) :=
  if num = 0 then some (0, -1074)
  else
    let guess : Int := (Nat.log2 num : Int) - Nat.log2 den - 53
    let low := if guess < -1074 then -1074 else guess
    let least := scaled num den low
    let e := if Nat.pow 2 53 ≤ least.1 / least.2 then low + 1 else low
    let fraction := scaled num den e
    let m := roundDiv fraction.1 fraction.2
    let result := if m = Nat.pow 2 53 then (Nat.pow 2 52, e + 1) else (m, e)
    if 971 < result.2 then none else some result

def ofFraction (negative : Bool) (num den : Nat) : Binary64 :=
  match nearest? num den with
  | some (m, e) => .finite negative m e
  | none => .infinite negative

/-- The number nearest to `mantissa * 10 ^ exponent`. A mantissa with `b` binary places has between
`b / 4` and `(b + 1) / 3 + 1` decimal ones, which settles the powers far past the range of numbers
without writing them out. -/
def ofDecimal (negative : Bool) (mantissa : Nat) (exponent : Int) : Binary64 :=
  let places : Int := Nat.log2 mantissa
  if mantissa = 0 ∨ exponent + (places + 1) / 3 + 1 < -400 then .finite negative 0 (-1074)
  else if 400 < exponent + places / 4 then .infinite negative
  else if exponent < 0 then ofFraction negative mantissa (Nat.pow 10 exponent.natAbs)
  else ofFraction negative (mantissa * Nat.pow 10 exponent.natAbs) 1

def fraction (m : Nat) (e : Int) : Nat × Nat :=
  if e < 0 then (m, Nat.pow 2 e.natAbs) else (m * Nat.pow 2 e.natAbs, 1)

def rounded? (num den : Nat) : Option (Nat × Nat) :=
  (nearest? num den).map fun r => fraction r.1 r.2

def isZero : Binary64 → Bool
  | .finite _ m _ => m == 0
  | _ => false

end Binary64
end Number
end Refit
