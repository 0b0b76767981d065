import Tariff.Decimal.Arithmetic

/-! Long division on words of 32 bits. With a divisor of three words every digit of the quotient is
estimated from the leading words, and only the low 32 bits of an estimate count, so after an estimate
that is longer than a word the remainder may not be the exact one. -/

set_option autoImplicit false

namespace Tariff.Decimal

-- One more digit of the quotient, for a divisor of three words whose top bit is set. The next word
-- is put behind the remainder so far, and the digit, estimated from the leading words, times the
-- divisor is taken off. If that is more than there is, the divisor is put back until nothing is
-- owed.
def divisionStep (divisor remainder word : Nat) : Nat :=
  let running := remainder * twoTo 32 + word
  let lead := running / twoTo 64
  let digit := lead / (divisor / twoTo 64) % twoTo 32
  let left := (lead - digit * (divisor / twoTo 64)) % twoTo 32 * twoTo 64 + running % twoTo 64
  let owed := digit * (divisor % twoTo 64)
  if owed ≤ left then left - owed
  else (((left : Int) - owed) % divisor).toNat

def divisionRemainder (divisor : Nat) : Nat → Nat → Nat
  | 0, _ => 0
  | words + 1, number =>
      divisionStep divisor (divisionRemainder divisor words (number / twoTo 32))
        (number % twoTo 32)

def topShift (divisor : Nat) : Nat := 95 - Nat.log2 divisor

-- The remainder of two whole numbers, the divisor at most three words long. Both are moved up
-- first, and the remainder back down; seven words hold every number that two decimals of one scale
-- come to.
def wordRemainder (number divisor : Nat) : Nat :=
  if divisor < twoTo 64 then number % divisor
  else
    let shift := twoTo (topShift divisor)
    divisionRemainder (divisor * shift) 7 (number * shift) / shift

def rem? (a b : Decimal) : Option Decimal :=
  if b.isZero then none
  else if a.isZero then some zero
  else
    match a.abs.order b.abs with
    | .eq => some zero
    | .lt => some a
    | .gt =>
        let scale := max a.scale b.scale
        let left := wordRemainder (a.mantissa * tenTo (scale - a.scale))
          (b.mantissa * tenTo (scale - b.scale))
        ofParts? (left != 0 && a.negative) left scale

end Tariff.Decimal
