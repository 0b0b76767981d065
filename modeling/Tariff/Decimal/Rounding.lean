import Tariff.Decimal.Basic

set_option autoImplicit false

namespace Tariff

inductive Tie where
  | toEven
  | awayFromZero
deriving DecidableEq, Repr

def Tie.roundsUp (tie : Tie) (quotient twice unit : Nat) : Bool :=
  unit < twice || (twice == unit && (tie == .awayFromZero || quotient % 2 == 1))

def roundQuotient (tie : Tie) (numerator denominator : Nat) : Nat :=
  let quotient := numerator / denominator
  if tie.roundsUp quotient (2 * (numerator % denominator)) denominator then quotient + 1
  else quotient

theorem round_quotient_le (tie : Tie) (numerator denominator : Nat) (large : 2 ≤ denominator) :
    roundQuotient tie numerator denominator ≤ numerator := by
  have split := Nat.div_add_mod numerator denominator
  have twice : 2 * (numerator / denominator) ≤ denominator * (numerator / denominator) :=
    Nat.mul_le_mul_right _ large
  unfold roundQuotient
  dsimp only
  split
  · rename_i up
    simp only [Tie.roundsUp, Bool.or_eq_true, decide_eq_true_eq, Bool.and_eq_true,
      beq_iff_eq] at up
    omega
  · omega

namespace Decimal

-- The decimal nearest to `mantissa / 10 ^ scale` with as many digits as fit: the fewest digits are
-- dropped that bring both parts into range, half to even. None if no digit is left to drop.
def fit? (negative : Bool) (mantissa scale : Nat) : Option Decimal :=
  (List.range (scale + 1)).findSome? fun dropped =>
    ofParts? negative (roundQuotient .toEven mantissa (tenTo dropped)) (scale - dropped)

theorem two_le_ten_to_sub {scale places : Nat} (more : ¬ scale ≤ places) :
    2 ≤ tenTo (scale - places) := by
  obtain ⟨further, same⟩ : ∃ further, scale - places = further + 1 := ⟨scale - places - 1, by omega⟩
  have positive := ten_to_pos further
  rw [same, ten_to_succ]
  omega

def shorten (tie : Tie) (places : Nat) (d : Decimal) : Decimal :=
  if short : d.scale ≤ places then d
  else
    { negative := d.negative
      mantissa := roundQuotient tie d.mantissa (tenTo (d.scale - places))
      scale := places
      mantissa_le :=
        Nat.le_trans (round_quotient_le tie _ _ (two_le_ten_to_sub short)) d.mantissa_le
      scale_le := Nat.le_trans (Nat.le_of_lt (Nat.lt_of_not_le short)) d.scale_le }

-- As `shorten`, but a value that rounds to zero loses its sign.
def roundTo (tie : Tie) (places : Nat) (d : Decimal) : Decimal :=
  let rounded := d.shorten tie places
  if rounded.isZero && !d.isZero then rounded.abs else rounded

theorem round_to_short (tie : Tie) (places : Nat) (d : Decimal) (short : d.scale ≤ places) :
    d.roundTo tie places = d := by
  have same : d.shorten tie places = d := dif_pos short
  cases zero : d.isZero <;> simp [roundTo, same, zero]

theorem round_to_scale (tie : Tie) (places : Nat) (d : Decimal) :
    (d.roundTo tie places).scale ≤ places := by
  have shortened : (d.shorten tie places).scale ≤ places := by
    by_cases short : d.scale ≤ places
    · rw [shorten, dif_pos short]
      exact short
    · have cut : (d.shorten tie places).scale = places := by rw [shorten, dif_neg short]
      exact Nat.le_of_eq cut
  unfold roundTo
  dsimp only
  split
  · exact shortened
  · exact shortened

-- Zeros are written behind the last digit until there are `places` digits behind the point or one
-- more would not fit.
def padTo (places : Nat) (d : Decimal) : Decimal :=
  go (places - d.scale) d
where
  go : Nat → Decimal → Decimal
    | 0, d => d
    | missing + 1, d =>
        match ofParts? d.negative (d.mantissa * 10) (d.scale + 1) with
        | some longer => go missing longer
        | none => d

def isWhole (d : Decimal) : Bool := d.mantissa % tenTo d.scale == 0

def wholePart (d : Decimal) : Nat := d.mantissa / tenTo d.scale

def truncate (d : Decimal) : Decimal :=
  { negative := d.negative
    mantissa := d.wholePart
    scale := 0
    mantissa_le := Nat.le_trans (Nat.div_le_self _ _) d.mantissa_le
    scale_le := Nat.zero_le _ }

def dropZeros (count : Nat) (mantissa scale : Nat) : Nat × Nat :=
  if count ≤ scale ∧ mantissa % tenTo count = 0 then (mantissa / tenTo count, scale - count)
  else (mantissa, scale)

def normalize (d : Decimal) : Decimal :=
  if d.isZero then zero else go d.scale d
where
  go : Nat → Decimal → Decimal
    | 0, d => d
    | fuel + 1, d =>
        if d.mantissa % 10 = 0 then
          go fuel
            { negative := d.negative
              mantissa := d.mantissa / 10
              scale := d.scale - 1
              mantissa_le := Nat.le_trans (Nat.div_le_self _ _) d.mantissa_le
              scale_le := Nat.le_trans (Nat.sub_le _ _) d.scale_le }
        else d

end Decimal

end Tariff
