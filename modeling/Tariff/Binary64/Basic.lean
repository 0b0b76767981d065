import Tariff.Decimal.Rounding

set_option autoImplicit false

namespace Tariff

structure Binary64 where
  negative : Bool
  significand : Nat
  exponent : Int
  canonical : significand < twoTo 53 ∧ -1074 ≤ exponent ∧ exponent ≤ 971 ∧
    (twoTo 52 ≤ significand ∨ exponent = -1074)
deriving DecidableEq, Repr

namespace Binary64

def ofParts? (negative : Bool) (significand : Nat) (exponent : Int) : Option Binary64 :=
  if canonical : significand < twoTo 53 ∧ -1074 ≤ exponent ∧ exponent ≤ 971 ∧
      (twoTo 52 ≤ significand ∨ exponent = -1074) then
    some ⟨negative, significand, exponent, canonical⟩
  else none

def zero (negative : Bool) : Binary64 := ⟨negative, 0, -1074, by decide⟩

def leadingExponent (numerator denominator : Nat) : Int :=
  let guess := (Nat.log2 numerator : Int) - Nat.log2 denominator - 52
  let scaled := numerator * twoTo (-guess).toNat / (denominator * twoTo guess.toNat)
  if twoTo 52 ≤ scaled then guess else guess - 1

def nearest? (negative : Bool) (numerator denominator : Nat) : Option Binary64 :=
  if numerator = 0 then some (zero negative)
  else
    let exponent := max (leadingExponent numerator denominator) (-1074)
    let significand := roundQuotient .toEven (numerator * twoTo (-exponent).toNat)
      (denominator * twoTo exponent.toNat)
    if significand = twoTo 53 then ofParts? negative (twoTo 52) (exponent + 1)
    else ofParts? negative significand exponent

def numerator (x : Binary64) : Nat := x.significand * twoTo x.exponent.toNat

def denominator (x : Binary64) : Nat := twoTo (-x.exponent).toNat

def isZero (x : Binary64) : Bool := x.significand == 0

def withSign (negative : Bool) (x : Binary64) : Binary64 := { x with negative := negative }

def addMagnitudes? (x y : Binary64) : Option Binary64 :=
  nearest? false (x.numerator * y.denominator + y.numerator * x.denominator)
    (x.denominator * y.denominator)

def mulMagnitudes? (x y : Binary64) : Option Binary64 :=
  nearest? false (x.numerator * y.numerator) (x.denominator * y.denominator)

def divMagnitudes? (x y : Binary64) : Option Binary64 :=
  nearest? false (x.numerator * y.denominator) (x.denominator * y.numerator)

def roundMagnitude? (x : Binary64) : Option Binary64 :=
  nearest? false (roundQuotient .awayFromZero x.numerator x.denominator) 1

end Binary64

end Tariff
