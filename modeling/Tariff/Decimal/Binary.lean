import Tariff.Decimal.Text
import Tariff.Binary64.Text

/-! A decimal becomes a binary number in binary arithmetic, each step rounded: whole part and fraction
apart, their sum, and a rounding at the last place of the decimal. -/

set_option autoImplicit false

namespace Tariff.Decimal

def scaledMagnitude? (d : Decimal) : Option Binary64 := do
  let power ← Binary64.nearest? false (tenTo d.scale) 1
  let whole ← Binary64.nearest? false d.wholePart 1
  let rest ← Binary64.nearest? false (d.mantissa % tenTo d.scale) 1
  let fraction ← rest.divMagnitudes? power
  if fraction.isZero then pure whole
  else
    let sum ← whole.addMagnitudes? fraction
    let lastPlaces ← sum.mulMagnitudes? power
    let rounded ← lastPlaces.roundMagnitude?
    rounded.divMagnitudes? power

-- A zero of scale zero loses its sign.
def toBinary64? (d : Decimal) : Option Binary64 :=
  if d.scale = 0 then Binary64.nearest? (d.negative && !d.isZero) d.mantissa 1
  else d.scaledMagnitude?.map (·.withSign d.negative)

def toInt64? (d : Decimal) : Option Int :=
  let value := d.truncate.signed
  if -9223372036854775808 ≤ value ∧ value ≤ 9223372036854775807 then some value else none

end Tariff.Decimal
