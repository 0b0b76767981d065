import Tariff.Decimal.Rounding

/-! Every operation works on exact whole numbers and then keeps as many digits as fit. A zero operand is
short-circuited, so the scale of the other operand survives. -/

set_option autoImplicit false

namespace Tariff.Decimal

def add? (a b : Decimal) : Option Decimal :=
  if a.isZero then some b
  else if b.isZero then some a
  else
    let scale := max a.scale b.scale
    let sum := a.signed * tenTo (scale - a.scale) + b.signed * tenTo (scale - b.scale)
    fit? (sum < 0) sum.natAbs scale

def sub? (a b : Decimal) : Option Decimal :=
  if a.isZero then some (if b.isZero then b else b.neg)
  else a.add? b.neg

-- Does the mantissa fit a 32-bit word? Products of two such decimals are rounded apart.
def isSmall (d : Decimal) : Bool := d.mantissa < 4294967296

def mul? (a b : Decimal) : Option Decimal :=
  if a.isZero || b.isZero then some zero
  else
    let negative := a.negative != b.negative
    let product := fit? negative (a.mantissa * b.mantissa) (a.scale + b.scale)
    if a.isSmall && b.isSmall then
      if 47 < a.scale + b.scale then some zero
      else product.map fun d => if d.isZero then d.abs else d
    else product

-- A quotient one digit too long is rounded to the next shorter one; `excess` tells that the exact
-- quotient is larger than `quotient`.
def settle (quotient : Nat) (excess : Bool) (scale : Int) : Option (Nat × Int) :=
  if quotient ≤ maxMantissa then some (quotient, scale)
  else if scale ≤ 0 then none
  else
    let digit := quotient % 10
    let shorter := quotient / 10
    let up := 5 < digit || (digit == 5 && (excess || shorter % 2 == 1))
    some (if up then shorter + 1 else shorter, scale - 1)

def nextDigits (quotient : Nat) (scale : Int) : Nat :=
  ((List.range 10).reverse.find? fun (digits : Nat) =>
    scale + (digits : Int) ≤ maxScale && quotient * tenTo digits ≤ maxMantissa).getD 0

-- Long division by `divisor`, up to nine digits at a time, while a remainder is left or the scale
-- is below zero. The result tells whether there was ever a remainder. A step adds a digit at least,
-- so `steps` runs out for no scale in range.
def divide (divisor : Nat) : Nat → Nat → Nat → Int → Bool → Option (Nat × Int × Bool)
  | 0, _, _, _, _ => none
  | steps + 1, quotient, remainder, scale, uneven =>
      if remainder = 0 then
        if 0 ≤ scale then some (quotient, scale, uneven)
        else
          let digits := min 9 (-scale).toNat
          let longer := quotient * tenTo digits
          if longer ≤ maxMantissa then divide divisor steps longer 0 (scale + digits) uneven
          else none
      else
        let digits := nextDigits quotient scale
        if digits = 0 then
          if scale < 0 then none
          else
            let up := Tie.toEven.roundsUp quotient (2 * remainder) divisor
            (settle (if up then quotient + 1 else quotient) true scale).map
              fun (settled, scale) => (settled, scale, true)
        else
          let power := tenTo digits
          let longer := quotient * power + remainder * power / divisor
          let left := remainder * power % divisor
          if longer ≤ maxMantissa then divide divisor steps longer left (scale + digits) true
          else
            (settle longer (left != 0) (scale + digits)).map
              fun (settled, scale) => (settled, scale, true)

-- Groups of eight zeros are taken off while the lowest 32 bits of the mantissa are zero.
def dropEights : Nat → Nat → Nat → Nat × Nat
  | 0, mantissa, scale => (mantissa, scale)
  | fuel + 1, mantissa, scale =>
      if mantissa % 4294967296 = 0 ∧ 8 ≤ scale ∧ mantissa % 100000000 = 0 then
        dropEights fuel (mantissa / 100000000) (scale - 8)
      else (mantissa, scale)

def dropTrailing (mantissa scale : Nat) : Nat × Nat :=
  let (mantissa, scale) := dropEights scale mantissa scale
  let (mantissa, scale) := dropZeros 4 mantissa scale
  let (mantissa, scale) := dropZeros 2 mantissa scale
  dropZeros 1 mantissa scale

def div? (a b : Decimal) : Option Decimal :=
  if b.isZero then none
  else if a.isZero then some zero
  else
    match divide b.mantissa 64 (a.mantissa / b.mantissa) (a.mantissa % b.mantissa)
        ((a.scale : Int) - b.scale) false with
    | none => none
    | some (mantissa, scale, uneven) =>
        let (mantissa, scale) :=
          if uneven then dropTrailing mantissa scale.toNat else (mantissa, scale.toNat)
        ofParts? (mantissa != 0 && a.negative != b.negative) mantissa scale

end Tariff.Decimal
