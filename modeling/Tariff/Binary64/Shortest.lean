import Tariff.Binary64.Basic

/-! The shortest decimal that reads back as a binary number. The reals that round to the number form an
interval, ends included iff the significand is even; grids of one digit, two digits and so on are tried.
-/

set_option autoImplicit false

namespace Tariff.Binary64

def leadingPower (numerator denominator : Nat) : Int :=
  if denominator ≤ numerator then
    (Nat.toDigits 10 (numerator / denominator)).length - 1
  else
    let below : Int := (Nat.toDigits 10 (denominator / numerator)).length
    if numerator * tenTo (below - 1).toNat = denominator then 1 - below else -below

-- Four times the significand, and the ends of the interval in the same unit, a quarter of the last
-- place. Below a power of two the next smaller number is twice as near.
def lowerEnd (x : Binary64) : Nat :=
  if x.significand = twoTo 52 ∧ x.exponent ≠ -1074 then 4 * x.significand - 1
  else 4 * x.significand - 2

def upperEnd (x : Binary64) : Nat := 4 * x.significand + 2

def quarterUp (x : Binary64) (power : Int) : Nat :=
  tenTo (-power).toNat * twoTo (x.exponent - 2).toNat

def quarterDown (x : Binary64) (power : Int) : Nat :=
  tenTo power.toNat * twoTo (2 - x.exponent).toNat

def readsBack (x : Binary64) (power : Int) (digits : Nat) : Bool :=
  let point := digits * x.quarterDown power
  let lower := x.lowerEnd * x.quarterUp power
  let upper := x.upperEnd * x.quarterUp power
  let closed := x.significand % 2 == 0
  (lower < point || (closed && lower == point)) && (point < upper || (closed && upper == point))

-- The neighbour on the grid of `10 ^ power` that reads back, the nearer one of two, the one that
-- `tie` prefers of two equally near.
def neighbour? (x : Binary64) (tie : Tie) (power : Int) : Option Nat :=
  let exact := 4 * x.significand * x.quarterUp power
  let unit := x.quarterDown power
  let below := exact / unit
  let nearest := roundQuotient tie exact unit
  if x.readsBack power nearest then some nearest
  else if x.readsBack power below then some below
  else if x.readsBack power (below + 1) then some (below + 1)
  else none

-- Digits and a power of ten; seventeen digits always suffice.
def shortest (x : Binary64) (tie : Tie) : Nat × Int :=
  if x.isZero then (0, 0)
  else
    let first := leadingPower x.numerator x.denominator
    let found := (List.range 17).findSome? fun (more : Nat) =>
      (x.neighbour? tie (first - more)).map fun digits => (digits, first - more)
    match found with
    | none => (0, 0)
    | some (digits, power) =>
        if digits % 10 = 0 then (digits / 10, power + 1) else (digits, power)

end Tariff.Binary64
