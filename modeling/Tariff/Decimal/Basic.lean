import Tariff.Power

/-! The scale of a decimal is kept: `2.50` and `2.5` are different decimals of one value, and zero may
carry a sign. -/

set_option autoImplicit false

namespace Tariff

abbrev Decimal.maxMantissa : Nat := 79228162514264337593543950335

abbrev Decimal.maxScale : Nat := 28

structure Decimal where
  negative : Bool
  mantissa : Nat
  scale : Nat
  mantissa_le : mantissa ≤ Decimal.maxMantissa
  scale_le : scale ≤ Decimal.maxScale
deriving DecidableEq, Repr

namespace Decimal

def ofParts? (negative : Bool) (mantissa scale : Nat) : Option Decimal :=
  if inRange : mantissa ≤ maxMantissa ∧ scale ≤ maxScale then
    some ⟨negative, mantissa, scale, inRange.1, inRange.2⟩
  else none

def zero : Decimal := ⟨false, 0, 0, by decide, by decide⟩

def one : Decimal := ⟨false, 1, 0, by decide, by decide⟩

instance : Inhabited Decimal := ⟨zero⟩

def ofNat? (n : Nat) : Option Decimal := ofParts? false n 0

def ofInt? (n : Int) : Option Decimal := ofParts? (n < 0) n.natAbs 0

def isZero (d : Decimal) : Bool := d.mantissa == 0

def neg (d : Decimal) : Decimal := { d with negative := !d.negative }

def abs (d : Decimal) : Decimal := { d with negative := false }

def signed (d : Decimal) : Int := if d.negative then -(d.mantissa : Int) else d.mantissa

-- Order by value: `a / 10 ^ s` against `b / 10 ^ t` is `a * 10 ^ t` against `b * 10 ^ s`.
def order (a b : Decimal) : Ordering :=
  compare (a.signed * tenTo b.scale) (b.signed * tenTo a.scale)

def same (a b : Decimal) : Bool := a.signed * tenTo b.scale == b.signed * tenTo a.scale

def least (a b : Decimal) : Decimal := if b.order a == .lt then b else a

def greatest (a b : Decimal) : Decimal := if a.order b == .lt then b else a

theorem of_parts?_eq_some {negative : Bool} {mantissa scale : Nat} {d : Decimal}
    (made : ofParts? negative mantissa scale = some d) :
    d.negative = negative ∧ d.mantissa = mantissa ∧ d.scale = scale := by
  unfold ofParts? at made
  split at made
  · cases made
    exact ⟨rfl, rfl, rfl⟩
  · cases made

theorem signed_neg (d : Decimal) : d.neg.signed = -d.signed := by
  cases sign : d.negative <;> simp [neg, signed, sign]

theorem same_refl (d : Decimal) : d.same d = true := by
  simp [same]

theorem same_symm (a b : Decimal) : a.same b = b.same a := by
  simp [same, Bool.beq_comm]

end Decimal

end Tariff
