import Tariff.Decimal.Binary
import Tariff.Proofs.Binary64.Arithmetic
import Tariff.Proofs.Decimal.Value

set_option autoImplicit false

namespace Tariff

namespace Binary64

-- The last one below `2 ^ 96`.
def largest : Binary64 := ⟨false, 9007199254740991, 43, by decide⟩

-- One divided by the binary number next to `10 ^ 28`.
def smallest : Binary64 := ⟨false, 8920298079412250, -146, by decide⟩

-- The binary number next to `10 ^ 28`.
def greatestPower : Binary64 := ⟨false, 4547473508864641, 41, by decide⟩

def Moderate (x : Binary64) : Prop :=
  x.magnitude ≤ largest.magnitude ∧ (x.magnitude = 0 ∨ smallest.magnitude ≤ x.magnitude)

theorem rounds_largest : Rounds (79228162514264333195497439231 : Nat) largest.magnitude := by
  refine ⟨43, ⟨by decide, .inr (by norm_num), by norm_num⟩, ?_⟩
  have place : ((79228162514264333195497439231 : Nat) / 2 ^ (43 : ℤ) : ℚ) =
      (79228162514264333195497439231 : Nat) / (8796093022208 : Nat) := by norm_num
  rw [place, nearest_whole_div _ _ _ (by decide)]
  rfl

theorem rounds_greatest_power : Rounds (tenTo 28) greatestPower.magnitude := by
  refine ⟨41, ⟨by decide, .inr (by norm_num [tenTo]), by norm_num [tenTo]⟩, ?_⟩
  have place : ((tenTo 28 : Nat) / 2 ^ (41 : ℤ) : ℚ) = (tenTo 28 : Nat) / (2199023255552 : Nat) := by
    norm_num
  rw [place, nearest_whole_div _ _ _ (by decide)]
  rfl

theorem rounds_smallest : Rounds (1 / greatestPower.magnitude) smallest.magnitude := by
  have power : greatestPower.magnitude = (9999999999999999583119736832 : Nat) := by
    norm_num [magnitude, greatestPower]
  rw [power]
  refine ⟨-146, ⟨by decide, .inr (by norm_num), by norm_num⟩, ?_⟩
  have place : (1 / (9999999999999999583119736832 : Nat) / 2 ^ (-146 : ℤ) : ℚ) =
      (89202980794122492566142873090593446023921664 : Nat) /
        (9999999999999999583119736832 : Nat) := by norm_num
  rw [place, nearest_whole_div _ _ _ (by decide)]
  rfl

theorem moderate_zero {x : Binary64} (zero : x.magnitude = 0) : x.Moderate :=
  ⟨zero.le.trans largest.magnitude_nonneg, .inl zero⟩

theorem moderate_of_one_le {x : Binary64} (le : x.magnitude ≤ largest.magnitude)
    (least : 1 ≤ x.magnitude) : x.Moderate := by
  refine ⟨le, .inr (le_trans ?_ least)⟩
  norm_num [magnitude, smallest]

theorem moderate_whole {x : Binary64} {n : Nat} (rounds : Rounds n x.magnitude)
    (small : n ≤ 79228162514264333195497439231) : x.Moderate := by
  rcases Nat.eq_zero_or_pos n with zero | positive
  · subst zero
    have none := rounds.mono rounds_zero (by simp) (by simp)
    exact moderate_zero (none.antisymm x.magnitude_nonneg)
  · have least := rounds_one.mono rounds zero_le_one (by exact_mod_cast positive)
    exact moderate_of_one_le (rounds.mono rounds_largest (by positivity) (by exact_mod_cast small))
      least

structure IsPower (power : Binary64) : Prop where
  large : 1 ≤ power.magnitude
  small : power.magnitude ≤ greatestPower.magnitude

theorem is_power_of_rounds {power : Binary64} {scale : Nat}
    (rounds : Rounds (tenTo scale) power.magnitude) (short : scale ≤ 28) : IsPower power where
  large := rounds_one.mono rounds zero_le_one (by exact_mod_cast ten_to_pos scale)
  small := rounds.mono rounds_greatest_power (ten_to_pos_rat scale).le
    (by exact_mod_cast Nat.pow_le_pow_right (by decide) short)

section

variable {power whole fraction sum places rounded result : Binary64} (isPower : IsPower power)

include isPower

theorem moderate_divided (sumSmall : sum.magnitude ≤ 2 ^ 94)
    (multiplied : sum.mulMagnitudes? power = some places)
    (cut : places.roundMagnitude? = some rounded)
    (divided : rounded.divMagnitudes? power = some result) : result.Moderate := by
  have positive : 0 < power.magnitude := zero_lt_one.trans_le isPower.large
  have doubled := rounds_doubled isPower.large 94
  obtain ⟨most, whole⟩ := doubled_whole isPower.large (show 53 ≤ 94 by decide)
  have few : places.magnitude ≤ 2 ^ 94 * power.magnitude :=
    (mul_magnitudes?_rounds multiplied).mono doubled
      (mul_nonneg sum.magnitude_nonneg positive.le) (mul_le_mul_of_nonneg_right sumSmall positive.le)
  have fewRounded : rounded.magnitude ≤ 2 ^ 94 * power.magnitude := by
    refine (round_magnitude?_rounds cut).mono doubled (Nat.cast_nonneg _) ?_
    rw [whole] at few ⊢
    have mono := nearest_whole_mono .awayFromZero places.magnitude_nonneg few
    rw [nearest_whole_nat_cast] at mono
    exact_mod_cast mono
  have divides := div_magnitudes?_rounds positive divided
  have quotient : 0 ≤ rounded.magnitude / power.magnitude :=
    div_nonneg rounded.magnitude_nonneg positive.le
  have upper : result.magnitude ≤ largest.magnitude := by
    have bound : result.magnitude ≤ 2 ^ 94 :=
      divides.mono (rounds_two_pow 94) quotient ((div_le_iff₀ positive).mpr fewRounded)
    refine bound.trans ?_
    norm_num [magnitude, largest]
  refine ⟨upper, ?_⟩
  rcases Nat.eq_zero_or_pos (nearestWhole .awayFromZero places.magnitude) with none | some
  · left
    have nothing := (round_magnitude?_rounds cut).mono rounds_zero (Nat.cast_nonneg _) (by simp [none])
    rw [nothing.antisymm rounded.magnitude_nonneg, zero_div] at divides
    exact (divides.mono rounds_zero le_rfl le_rfl).antisymm result.magnitude_nonneg
  · right
    have least : 1 ≤ rounded.magnitude :=
      rounds_one.mono (round_magnitude?_rounds cut) zero_le_one (by exact_mod_cast some)
    refine rounds_smallest.mono divides (by simp [magnitude_nonneg]) ?_
    exact div_le_div₀ rounded.magnitude_nonneg least positive isPower.small

end

end Binary64

namespace Decimal

open Binary64

theorem whole_part_small {d : Decimal} (scaled : d.scale ≠ 0) : d.wholePart ≤ 2 ^ 93 := by
  have ten : tenTo 1 ≤ tenTo d.scale :=
    Nat.pow_le_pow_right (by decide) (Nat.pos_of_ne_zero scaled)
  calc d.mantissa / tenTo d.scale
      ≤ d.mantissa / 10 := Nat.div_le_div_left ten (by decide)
    _ ≤ maxMantissa / 10 := Nat.div_le_div_right d.mantissa_le
    _ ≤ 2 ^ 93 := by decide

theorem scaled_magnitude?_moderate {d : Decimal} {x : Binary64} (scaled : d.scale ≠ 0)
    (made : d.scaledMagnitude? = some x) : x.Moderate := by
  obtain ⟨power, poweredBy, made⟩ := Option.bind_eq_some_iff.mp made
  obtain ⟨whole, wholeMade, made⟩ := Option.bind_eq_some_iff.mp made
  obtain ⟨rest, restMade, made⟩ := Option.bind_eq_some_iff.mp made
  obtain ⟨fraction, divided, made⟩ := Option.bind_eq_some_iff.mp made
  have wholeRounds := nearest?_whole_rounds wholeMade
  have small := whole_part_small scaled
  split at made
  · cases made
    exact moderate_whole wholeRounds (small.trans (by decide))
  · obtain ⟨sum, added, made⟩ := Option.bind_eq_some_iff.mp made
    obtain ⟨places, multiplied, made⟩ := Option.bind_eq_some_iff.mp made
    obtain ⟨rounded, cut, made⟩ := Option.bind_eq_some_iff.mp made
    have powerRounds := nearest?_whole_rounds poweredBy
    have isPower := is_power_of_rounds powerRounds d.scale_le
    have positive : 0 < power.magnitude := zero_lt_one.trans_le isPower.large
    have wholeLe : whole.magnitude ≤ 2 ^ 93 :=
      wholeRounds.mono (rounds_two_pow 93) (Nat.cast_nonneg _) (by exact_mod_cast small)
    have restLe : rest.magnitude ≤ power.magnitude :=
      (nearest?_whole_rounds restMade).mono powerRounds (Nat.cast_nonneg _)
        (by exact_mod_cast (Nat.mod_lt _ (ten_to_pos _)).le)
    have fractionLe : fraction.magnitude ≤ 1 :=
      (div_magnitudes?_rounds positive divided).mono rounds_one
        (div_nonneg rest.magnitude_nonneg positive.le) ((div_le_one positive).mpr restLe)
    have sumLe : sum.magnitude ≤ 2 ^ 94 :=
      (add_magnitudes?_rounds added).mono (rounds_two_pow 94)
        (add_nonneg whole.magnitude_nonneg fraction.magnitude_nonneg)
        ((add_le_add wholeLe fractionLe).trans (by norm_num))
    exact moderate_divided isPower sumLe multiplied cut made

theorem to_binary64?_moderate {d : Decimal} {x : Binary64} (made : d.toBinary64? = some x)
    (small : d.mantissa < 79228162514264333195497439232 * tenTo d.scale) : x.Moderate := by
  unfold toBinary64? at made
  split at made
  · rename_i whole
    rw [whole, ten_to_zero] at small
    exact moderate_whole (nearest?_whole_rounds made) (by omega)
  · rename_i scaled
    obtain ⟨magnitude, alsoMade, same⟩ := Option.map_eq_some_iff.mp made
    subst same
    have moderate := scaled_magnitude?_moderate scaled alsoMade
    exact moderate

end Decimal

end Tariff
