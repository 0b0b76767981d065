import Tariff.Decimal.Binary
import Tariff.Proofs.Binary64.Recovered

/-! The errors of the steps add up to less than half a last place of at most fifteen digits, and
rounding at the last place of the decimal takes them away. -/

set_option autoImplicit false

namespace Tariff

namespace Decimal

open Binary64

theorem last_place_kept {whole rest places sum product : ℚ} {mantissa : Nat}
    (split : whole + rest = mantissa) (few : mantissa < 10 ^ 15) (wholeLarge : 0 ≤ whole)
    (divided : |places - rest| ≤ rest / 2 ^ 53)
    (added : |sum - (whole + places)| ≤ (whole + places) / 2 ^ 53)
    (multiplied : |product - sum| ≤ sum / 2 ^ 53) : |(mantissa : ℚ) - product| < 1 / 2 := by
  have fewRat : (mantissa : ℚ) < 10 ^ 15 := by exact_mod_cast few
  rw [abs_le] at divided added multiplied
  rw [abs_lt]
  constructor
  · linarith
  · linarith

theorem scaled_near {a b unit : ℚ} (positive : 0 < unit) (near : |a - b| ≤ b / 2 ^ 53) :
    |a * unit - b * unit| ≤ b * unit / 2 ^ 53 := by
  rw [← sub_mul, abs_mul, abs_of_pos positive, mul_div_right_comm]
  exact mul_le_mul_of_nonneg_right near positive.le

-- A number of at most fifteen digits with some behind the point, at most twenty-two.
structure Fractional (d : Decimal) : Prop where
  few : d.mantissa < 10 ^ 15
  places : d.scale ≤ 22
  notWhole : d.mantissa % tenTo d.scale ≠ 0

theorem moderate_lt {q : ℚ} (small : q ≤ 10 ^ 60) : q < 2 ^ (1000 : ℤ) := by
  have power : (2 : ℚ) ^ (200 : ℤ) ≤ 2 ^ (1000 : ℤ) :=
    zpow_le_zpow_right₀ (by norm_num) (by norm_num)
  refine lt_of_lt_of_le (small.trans_lt ?_) power
  norm_num

theorem moderate_large {q : ℚ} (large : 1 / 10 ^ 24 ≤ q) : 2 ^ (-1022 : ℤ) ≤ q := by
  have power : (2 : ℚ) ^ (-1022 : ℤ) ≤ 2 ^ (-100 : ℤ) :=
    zpow_le_zpow_right₀ (by norm_num) (by norm_num)
  refine power.trans (le_trans ?_ large)
  norm_num

theorem le_two_pow {q r : ℚ} {k : Nat} (rounds : Rounds q r) (nonnegative : 0 ≤ q)
    (small : q ≤ 2 ^ k) : r ≤ 2 ^ k :=
  rounds.mono (rounds_two_pow k) nonnegative small

theorem last_steps_some {whole fraction power : Binary64} (wholeMost : whole.magnitude ≤ 2 ^ 96)
    (fractionMost : fraction.magnitude ≤ 2 ^ 96) (powerLeast : 1 ≤ power.magnitude)
    (powerMost : power.magnitude ≤ 2 ^ 94) :
    ∃ sum places rounded x, whole.addMagnitudes? fraction = some sum ∧
      sum.mulMagnitudes? power = some places ∧ places.roundMagnitude? = some rounded ∧
      rounded.divMagnitudes? power = some x := by
  have positive := zero_lt_one.trans_le powerLeast
  have sumMost : whole.magnitude + fraction.magnitude ≤ 2 ^ 97 := by linarith
  obtain ⟨sum, added, sumRounds⟩ := add_magnitudes?_some (moderate_lt (sumMost.trans (by norm_num)))
  have productMost : sum.magnitude * power.magnitude ≤ 2 ^ 191 := by
    have most := le_two_pow sumRounds
      (add_nonneg whole.magnitude_nonneg fraction.magnitude_nonneg) sumMost
    have product := mul_le_mul most powerMost positive.le (by norm_num)
    exact product.trans (by norm_num)
  obtain ⟨places, multiplied, placesRounds⟩ :=
    mul_magnitudes?_some (moderate_lt (productMost.trans (by norm_num)))
  have cutMost : (nearestWhole .awayFromZero places.magnitude : ℚ) ≤ 2 ^ 191 := by
    have most := le_two_pow placesRounds (mul_nonneg sum.magnitude_nonneg positive.le) productMost
    have whole : ((2 ^ 191 : Nat) : ℚ) = 2 ^ 191 := by norm_num
    rw [← whole] at most ⊢
    have mono := nearest_whole_mono .awayFromZero places.magnitude_nonneg most
    rw [nearest_whole_nat_cast] at mono
    exact_mod_cast mono
  obtain ⟨rounded, cut, roundedRounds⟩ :=
    round_magnitude?_some (moderate_lt (cutMost.trans (by norm_num)))
  have roundedMost := le_two_pow roundedRounds (Nat.cast_nonneg _) cutMost
  have lastMost : rounded.magnitude / power.magnitude ≤ 2 ^ 191 :=
    (div_le_self rounded.magnitude_nonneg powerLeast).trans roundedMost
  obtain ⟨x, made, _⟩ := div_magnitudes?_some positive (moderate_lt (lastMost.trans (by norm_num)))
  exact ⟨sum, places, rounded, x, added, multiplied, cut, made⟩

theorem scaled_magnitude?_some (d : Decimal) : ∃ x, d.scaledMagnitude? = some x := by
  have bits {n : Nat} (le : n ≤ d.mantissa) : (n : ℚ) ≤ 2 ^ 96 := by
    have small : n ≤ 2 ^ 96 := le.trans (d.mantissa_le.trans (by decide))
    exact_mod_cast small
  have ten : (tenTo d.scale : ℚ) ≤ 2 ^ 94 := by
    have small : tenTo d.scale ≤ 2 ^ 94 :=
      (Nat.pow_le_pow_right (by decide) d.scale_le).trans (by decide)
    exact_mod_cast small
  have wholeBits := bits (show d.wholePart ≤ d.mantissa from Nat.div_le_self _ _)
  have restBits := bits (show d.mantissa % tenTo d.scale ≤ d.mantissa from Nat.mod_le _ _)
  obtain ⟨power, poweredBy, powerRounds⟩ :=
    nearest?_whole_some (moderate_lt (ten.trans (by norm_num)))
  obtain ⟨whole, wholeMade, wholeRounds⟩ :=
    nearest?_whole_some (moderate_lt (wholeBits.trans (by norm_num)))
  obtain ⟨rest, restMade, restRounds⟩ :=
    nearest?_whole_some (moderate_lt (restBits.trans (by norm_num)))
  have one : 1 ≤ power.magnitude :=
    rounds_one.mono powerRounds zero_le_one (by exact_mod_cast ten_to_pos d.scale)
  have positive := zero_lt_one.trans_le one
  have quotientMost : rest.magnitude / power.magnitude ≤ 2 ^ 96 :=
    (div_le_self rest.magnitude_nonneg one).trans
      (le_two_pow restRounds (Nat.cast_nonneg _) restBits)
  obtain ⟨fraction, divided, fractionRounds⟩ :=
    div_magnitudes?_some positive (moderate_lt (quotientMost.trans (by norm_num)))
  have fractionMost := le_two_pow fractionRounds
    (div_nonneg rest.magnitude_nonneg positive.le) quotientMost
  obtain ⟨sum, places, rounded, x, added, multiplied, cut, made⟩ := last_steps_some
    (le_two_pow wholeRounds (Nat.cast_nonneg _) wholeBits) fractionMost one
    (le_two_pow powerRounds (Nat.cast_nonneg _) ten)
  by_cases none : fraction.isZero = true
  · refine ⟨whole, Option.bind_eq_some_iff.mpr ⟨power, poweredBy, ?_⟩⟩
    refine Option.bind_eq_some_iff.mpr ⟨whole, wholeMade, ?_⟩
    refine Option.bind_eq_some_iff.mpr ⟨rest, restMade, ?_⟩
    exact Option.bind_eq_some_iff.mpr ⟨fraction, divided, if_pos none⟩
  · refine ⟨x, Option.bind_eq_some_iff.mpr ⟨power, poweredBy, ?_⟩⟩
    refine Option.bind_eq_some_iff.mpr ⟨whole, wholeMade, ?_⟩
    refine Option.bind_eq_some_iff.mpr ⟨rest, restMade, ?_⟩
    refine Option.bind_eq_some_iff.mpr ⟨fraction, divided, (if_neg none).trans ?_⟩
    refine Option.bind_eq_some_iff.mpr ⟨sum, added, ?_⟩
    refine Option.bind_eq_some_iff.mpr ⟨places, multiplied, ?_⟩
    exact Option.bind_eq_some_iff.mpr ⟨rounded, cut, made⟩

section

variable {whole fraction sum : Binary64} {rest power places : ℚ} {mantissa : Nat}
  (few : mantissa < 10 ^ 15) (restLeast : 1 ≤ rest) (powerLeast : 1 ≤ power)
  (powerMost : power ≤ 10 ^ 22) (divided : Rounds (rest / power) fraction.magnitude)

include powerLeast powerMost restLeast divided

theorem fraction_near :
    |fraction.magnitude - rest / power| ≤ rest / power / 2 ^ 53 ∧
      1 / 10 ^ 23 ≤ fraction.magnitude := by
  have positive := zero_lt_one.trans_le powerLeast
  have least : (1 / 10 ^ 22 : ℚ) ≤ rest / power :=
    div_le_div₀ (zero_le_one.trans restLeast) restLeast positive powerMost
  have near := divided.near (moderate_large (le_trans (by norm_num) least))
  have bounds := abs_le.mp near
  exact ⟨near, by linarith⟩

include few

theorem places_near (split : whole.magnitude * power + rest = mantissa)
    (added : Rounds (whole.magnitude + fraction.magnitude) sum.magnitude)
    (multiplied : Rounds (sum.magnitude * power) places) :
    |(mantissa : ℚ) - places| < 1 / 2 := by
  have positive := zero_lt_one.trans_le powerLeast
  have wholeLeast := whole.magnitude_nonneg
  obtain ⟨fractionNear, fractionLeast⟩ := fraction_near restLeast powerLeast powerMost divided
  have sumNear := added.near (moderate_large (le_trans (by norm_num) (fractionLeast.trans
    (le_add_of_nonneg_left wholeLeast))))
  have sumBounds := abs_le.mp sumNear
  have productLeast : (1 / 10 ^ 24 : ℚ) ≤ sum.magnitude * power :=
    le_trans (by linarith) (le_mul_of_one_le_right sum.magnitude_nonneg powerLeast)
  have fractionScaled := scaled_near positive fractionNear
  rw [div_mul_cancel₀ _ positive.ne'] at fractionScaled
  have sumScaled := scaled_near positive sumNear
  rw [add_mul] at sumScaled
  exact last_place_kept split few (mul_nonneg wholeLeast positive.le) fractionScaled sumScaled
    (multiplied.near (moderate_large productLeast))

end

theorem Fractional.scaled_magnitude?_short {d : Decimal} (fractional : d.Fractional) :
    ∃ x : Binary64, d.scaledMagnitude? = some x ∧ x.Short d.mantissa d.scale := by
  have few := fractional.few
  have restPositive : 1 ≤ d.mantissa % tenTo d.scale := Nat.pos_of_ne_zero fractional.notWhole
  have restFew : d.mantissa % tenTo d.scale ≤ d.mantissa := Nat.mod_le _ _
  have wholeFew : d.wholePart ≤ d.mantissa := Nat.div_le_self _ _
  have split : d.wholePart * tenTo d.scale + d.mantissa % tenTo d.scale = d.mantissa :=
    Nat.div_add_mod' _ _
  have tenOne : (1 : ℚ) ≤ tenTo d.scale := by exact_mod_cast ten_to_pos d.scale
  have tenMost : (tenTo d.scale : ℚ) ≤ 10 ^ 22 := by
    exact_mod_cast Nat.pow_le_pow_right (show 0 < 10 by decide) fractional.places
  obtain ⟨x, all⟩ := d.scaled_magnitude?_some
  refine ⟨x, all, restPositive.trans restFew, few, fractional.places.trans (by decide), ?_⟩
  obtain ⟨power, poweredBy, made⟩ := Option.bind_eq_some_iff.mp all
  obtain ⟨whole, wholeMade, made⟩ := Option.bind_eq_some_iff.mp made
  obtain ⟨rest, restMade, made⟩ := Option.bind_eq_some_iff.mp made
  obtain ⟨fraction, divided, made⟩ := Option.bind_eq_some_iff.mp made
  -- The power of ten and the two parts are exact.
  have powerSize := (nearest?_whole_rounds poweredBy).ten_to fractional.places
  have wholeSize := (nearest?_whole_rounds wholeMade).whole (by omega)
  have restSize := (nearest?_whole_rounds restMade).whole (by omega)
  have positive : 0 < power.magnitude := powerSize ▸ zero_lt_one.trans_le tenOne
  have fractionRounds := div_magnitudes?_rounds positive divided
  rw [restSize, powerSize] at fractionRounds
  have restOne : (1 : ℚ) ≤ (d.mantissa % tenTo d.scale : Nat) := by exact_mod_cast restPositive
  have nonzero : ¬fraction.isZero = true := by
    have least := (fraction_near restOne tenOne tenMost fractionRounds).2
    rw [← magnitude_eq_zero_iff]
    intro zero
    linarith
  rw [if_neg nonzero] at made
  obtain ⟨sum, added, made⟩ := Option.bind_eq_some_iff.mp made
  obtain ⟨places, multiplied, made⟩ := Option.bind_eq_some_iff.mp made
  obtain ⟨rounded, cut, made⟩ := Option.bind_eq_some_iff.mp made
  have placesRounds := mul_magnitudes?_rounds multiplied
  rw [powerSize] at placesRounds
  have near := places_near few restOne tenOne tenMost fractionRounds
    (by rw [wholeSize]; exact_mod_cast split) (add_magnitudes?_rounds added) placesRounds
  have roundedRounds := round_magnitude?_rounds cut
  rw [nearest_whole_eq places.magnitude_nonneg near] at roundedRounds
  have rounds := div_magnitudes?_rounds positive made
  rwa [roundedRounds.whole (by omega), powerSize] at rounds

theorem Fractional.to_binary64?_short {d : Decimal} (fractional : d.Fractional) :
    ∃ x : Binary64, d.toBinary64? = some x ∧ x.negative = d.negative ∧
      x.Short d.mantissa d.scale := by
  have scaled : d.scale ≠ 0 := by
    intro none
    apply fractional.notWhole
    rw [none, ten_to_zero, Nat.mod_one]
  obtain ⟨x, made, short⟩ := fractional.scaled_magnitude?_short
  refine ⟨x.withSign d.negative, ?_, rfl, ?_⟩
  · rw [toBinary64?, if_neg scaled, made]
    rfl
  · exact ⟨short.positive, short.few, short.places, short.rounds⟩

theorem to_binary64?_some (d : Decimal) : ∃ x, d.toBinary64? = some x := by
  unfold toBinary64?
  split
  · refine nearest?_some _ _ Nat.one_pos ?_
    have small : (d.mantissa : ℚ) ≤ maxMantissa := by exact_mod_cast d.mantissa_le
    rw [Nat.cast_one, div_one]
    exact moderate_lt (small.trans (by norm_num))
  · obtain ⟨x, made⟩ := d.scaled_magnitude?_some
    exact ⟨_, by rw [made]; rfl⟩

end Decimal

end Tariff
