import Tariff.Binary64.Shortest

set_option autoImplicit false

namespace Tariff.Binary64

def placePoint (digits : List Char) (before : Int) : List Char :=
  if before ≤ 0 then '0' :: '.' :: (List.replicate (-before).toNat '0' ++ digits)
  else
    let whole := digits.take before.toNat
    let fraction := digits.drop before.toNat
    let zeros := List.replicate (before.toNat - digits.length) '0'
    if fraction.isEmpty then whole ++ zeros else whole ++ '.' :: fraction

def signText (x : Binary64) : List Char := if x.negative then ['-'] else []

-- All digits and no exponent; a whole number has no point. Of two texts equally near the larger one
-- is written.
def fullText (x : Binary64) : List Char :=
  let (digits, power) := x.shortest .awayFromZero
  let digits := Nat.toDigits 10 digits
  x.signText ++ placePoint digits (digits.length + power)

def exponentText (power : Int) : List Char :=
  'e' :: (if power < 0 then '-' else '+') :: Nat.toDigits 10 power.natAbs

-- Positional from `1e-5` to below `1e16`, with one digit at least behind the point. Of two texts
-- equally near the one with the even last digit is written.
def jsonText (x : Binary64) : List Char :=
  let (digits, power) := x.shortest .toEven
  let digits := Nat.toDigits 10 digits
  let before : Int := digits.length + power
  let body :=
    if x.isZero then ['0', '.', '0']
    else if -5 < before ∧ before ≤ 16 then
      let plain := placePoint digits before
      if 0 ≤ power then plain ++ ['.', '0'] else plain
    else
      let fraction := digits.drop 1
      let fraction := if fraction.isEmpty then [] else '.' :: fraction
      digits.take 1 ++ fraction ++ exponentText (before - 1)
  x.signText ++ body

end Tariff.Binary64
