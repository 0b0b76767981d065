import Tariff.Decimal.Text
import Tariff.Binary64.Basic

/-! Binary numbers read from decimal digits by binary arithmetic: as many leading digits as 64 bits hold
and a power of ten are rounded each, and their product or quotient once more. Up to 15 digits and powers
up to 22 give the nearest binary number, others may give a neighbour of it. -/

set_option autoImplicit false

namespace Tariff.Binary64

def appendDigits (number : Nat) : List Char → Nat × List Char
  | [] => (number, [])
  | c :: rest =>
      let longer := number * 10 + Decimal.digitValue c
      if longer < twoTo 64 then appendDigits longer rest else (number, c :: rest)

def powerOfTen? (power : Nat) : Option Binary64 := nearest? false (tenTo power) 1

-- An absolute value below `2 ^ 64` times a power of ten. Powers above `10 ^ 308` are out of range,
-- for zero alone they do no harm. By a power that large a value is divided once, by a larger one in
-- two steps; below `10 ^ -616` nothing is left of it.
def scale? (x : Binary64) (power : Int) : Option Binary64 :=
  if x.isZero then some x
  else if 308 < power then none
  else if 0 ≤ power then do x.mulMagnitudes? (← powerOfTen? power.toNat)
  else if -308 ≤ power then do x.divMagnitudes? (← powerOfTen? (-power).toNat)
  else if -616 ≤ power then do
    let small ← x.divMagnitudes? (← powerOfTen? 308)
    small.divMagnitudes? (← powerOfTen? (-power - 308).toNat)
  else some (zero false)

-- The number with these digits before the point and behind it, times `10 ^ exponent`. Each digit
-- that is left out before the point raises the power, each that counts behind it lowers it.
def ofDigits? (negative : Bool) (whole fraction : List Char) (exponent : Int) :
    Option Binary64 := do
  let (number, left) := appendDigits 0 whole
  let (number, dropped) := appendDigits number fraction
  let places := fraction.length - dropped.length
  let rounded ← nearest? false number 1
  let scaled ← rounded.scale? (exponent + left.length - places)
  pure (scaled.withSign negative)

end Tariff.Binary64
