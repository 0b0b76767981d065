import Mathlib.Tactic.LinearCombination
import Tariff.Proofs.Binary64.Arithmetic

set_option autoImplicit false

namespace Tariff

theorem round_quotient_near (tie : Tie) (numerator : Nat) {denominator : Nat}
    (positive : 0 < denominator) :
    2 * numerator ≤ (2 * roundQuotient tie numerator denominator + 1) * denominator ∧
      2 * (roundQuotient tie numerator denominator * denominator) ≤ 2 * numerator + denominator := by
  have split := Nat.div_add_mod numerator denominator
  have less := Nat.mod_lt numerator positive
  unfold roundQuotient
  dsimp only
  generalize numerator / denominator = quotient at split ⊢
  generalize numerator % denominator = remainder at split less ⊢
  have product : denominator * quotient = quotient * denominator := Nat.mul_comm _ _
  split
  · rename_i up
    have above := (rounds_up_iff _ _ _ _).mp up
    constructor
    · nlinarith
    · have half : denominator ≤ 2 * remainder := by omega
      nlinarith
  · rename_i down
    have below : 2 * remainder ≤ denominator := by
      by_contra above
      exact down ((rounds_up_iff _ _ _ _).mpr (.inl (by omega)))
    constructor
    · nlinarith
    · nlinarith

-- Only an even number is taken for what lies halfway to its neighbour.
theorem round_quotient_half (numerator : Nat) {denominator : Nat} (positive : 0 < denominator)
    (half : 2 * numerator = (2 * roundQuotient .toEven numerator denominator + 1) * denominator ∨
      2 * (roundQuotient .toEven numerator denominator * denominator) = 2 * numerator + denominator) :
    roundQuotient .toEven numerator denominator % 2 = 0 := by
  have split := Nat.div_add_mod numerator denominator
  have less := Nat.mod_lt numerator positive
  revert half
  unfold roundQuotient
  dsimp only
  generalize numerator / denominator = quotient at split ⊢
  generalize numerator % denominator = remainder at split less ⊢
  have product : denominator * quotient = quotient * denominator := Nat.mul_comm _ _
  split
  · rename_i up
    intro half
    have above := (rounds_up_iff _ _ _ _).mp up
    have tied : 2 * remainder = denominator := by
      rcases half with above | below
      · nlinarith
      · nlinarith
    rcases above with above | ⟨_, decided | odd⟩
    · omega
    · cases decided
    · omega
  · rename_i down
    intro half
    have tied : 2 * remainder = denominator := by
      rcases half with above | below
      · nlinarith
      · nlinarith
    by_contra odd
    exact down ((rounds_up_iff _ _ _ _).mpr (.inr ⟨tied, .inr (by omega)⟩))

section

variable {q : ℚ} (nonnegative : 0 ≤ q)

include nonnegative

theorem num_nat_abs_eq : (q.num.natAbs : ℚ) = q * q.den := by
  rw [Rat.mul_den_eq_num, Nat.cast_natAbs, abs_of_nonneg (Rat.num_nonneg.mpr nonnegative)]

theorem nearest_whole_near (tie : Tie) : |(nearestWhole tie q : ℚ) - q| ≤ 1 / 2 := by
  obtain ⟨above, below⟩ := round_quotient_near tie q.num.natAbs q.den_pos
  change 2 * q.num.natAbs ≤ (2 * nearestWhole tie q + 1) * q.den at above
  change 2 * (nearestWhole tie q * q.den) ≤ 2 * q.num.natAbs + q.den at below
  have positive : (0 : ℚ) < q.den := by exact_mod_cast q.den_pos
  have size := num_nat_abs_eq nonnegative
  have upper : 2 * q ≤ 2 * nearestWhole tie q + 1 := by
    have scaled : (2 * q.num.natAbs : ℚ) ≤ (2 * nearestWhole tie q + 1) * q.den := by
      exact_mod_cast above
    refine le_of_mul_le_mul_right ?_ positive
    linarith
  have lower : 2 * (nearestWhole tie q : ℚ) ≤ 2 * q + 1 := by
    have scaled : (2 * (nearestWhole tie q * q.den) : ℚ) ≤ 2 * q.num.natAbs + q.den := by
      exact_mod_cast below
    refine le_of_mul_le_mul_right ?_ positive
    linarith
  rw [abs_le]
  constructor
  · linarith
  · linarith

theorem nearest_whole_eq {tie : Tie} {n : Nat} (near : |(n : ℚ) - q| < 1 / 2) :
    nearestWhole tie q = n := by
  have close := nearest_whole_near nonnegative tie
  rw [abs_le] at close
  rw [abs_lt] at near
  have below : (nearestWhole tie q : ℚ) < n + 1 := by linarith
  have above : (n : ℚ) < nearestWhole tie q + 1 := by linarith
  have belowNat : nearestWhole tie q < n + 1 := by exact_mod_cast below
  have aboveNat : n < nearestWhole tie q + 1 := by exact_mod_cast above
  omega

theorem nearest_whole_half (half : |(nearestWhole .toEven q : ℚ) - q| = 1 / 2) :
    nearestWhole .toEven q % 2 = 0 := by
  have size := num_nat_abs_eq nonnegative
  refine round_quotient_half q.num.natAbs q.den_pos ?_
  change 2 * q.num.natAbs = (2 * nearestWhole .toEven q + 1) * q.den ∨
    2 * (nearestWhole .toEven q * q.den) = 2 * q.num.natAbs + q.den
  rcases (abs_eq (by norm_num)).mp half with above | below
  · right
    have scaled : (2 * (nearestWhole .toEven q * q.den) : ℚ) = 2 * q.num.natAbs + q.den := by
      rw [size]
      linear_combination 2 * (q.den : ℚ) * above
    exact_mod_cast scaled
  · left
    have scaled : (2 * q.num.natAbs : ℚ) = (2 * nearestWhole .toEven q + 1) * q.den := by
      rw [size]
      linear_combination -2 * (q.den : ℚ) * below
    exact_mod_cast scaled

end

namespace Binary64

theorem rounded_near {q : ℚ} (nonnegative : 0 ≤ q) (e : ℤ) :
    |nearestWhole .toEven (q / 2 ^ e) * 2 ^ e - q| ≤ 2 ^ e / 2 := by
  have unit := two_zpow_pos e
  have near := nearest_whole_near (show 0 ≤ q / 2 ^ e by positivity) .toEven
  have split : (nearestWhole .toEven (q / 2 ^ e) : ℚ) * 2 ^ e - q =
      (nearestWhole .toEven (q / 2 ^ e) - q / 2 ^ e) * 2 ^ e := by
    field_simp
  rw [split, abs_mul, abs_of_pos unit]
  linarith [mul_le_mul_of_nonneg_right near unit.le]

theorem LastPlace.full {q : ℚ} {e : ℤ} (last : LastPlace q e) (large : 2 ^ (-1022 : ℤ) ≤ q) :
    2 ^ 52 * 2 ^ e ≤ q := by
  rcases last.normal with least | normal
  · rw [least]
    refine le_trans (le_of_eq ?_) large
    rw [← zpow_natCast, ← zpow_add₀ (by norm_num)]
    norm_num
  · exact normal

theorem Rounds.near {q r : ℚ} (rounds : Rounds q r) (large : 2 ^ (-1022 : ℤ) ≤ q) :
    |r - q| ≤ q / 2 ^ 53 := by
  obtain ⟨e, last, same⟩ := rounds
  have nonnegative : 0 ≤ q := (two_zpow_pos _).le.trans large
  have full := last.full large
  have near := rounded_near nonnegative e
  rw [same]
  refine near.trans ?_
  linarith

-- At most 53 binary digits in front of the last place.
theorem Rounds.dyadic {k : Nat} {j : ℤ} {r : ℚ} (rounds : Rounds (k * 2 ^ j) r) (small : k < 2 ^ 53)
    (least : -1074 ≤ j) : r = k * 2 ^ j := by
  obtain ⟨e, last, same⟩ := rounds
  have below : e ≤ j := by
    by_contra above
    rcases last.normal with smallest | normal
    · omega
    · have digits : (k : ℚ) * 2 ^ j < 2 ^ 53 * 2 ^ j :=
        mul_lt_mul_of_pos_right (by exact_mod_cast small) (two_zpow_pos j)
      have places := two_zpow_succ_le (not_le.mp above)
      linarith
  obtain ⟨more, sum⟩ := Int.le.dest below
  have whole : (k * 2 ^ j / 2 ^ e : ℚ) = (k * 2 ^ more : Nat) := by
    rw [div_eq_iff (two_zpow_pos e).ne', ← sum, zpow_add₀ (by norm_num), zpow_natCast]
    push_cast
    ring
  rw [same, whole, nearest_whole_nat_cast, ← whole, div_mul_cancel₀ _ (two_zpow_pos e).ne']

theorem Rounds.whole {n : Nat} {r : ℚ} (rounds : Rounds n r) (small : n < 2 ^ 53) : r = n := by
  have same : ((n : ℚ) * 2 ^ (0 : ℤ)) = n := by rw [zpow_zero, mul_one]
  rw [← same] at rounds ⊢
  exact rounds.dyadic small (by decide)

-- The powers of five up to this one have 53 binary digits at most.
theorem Rounds.ten_to {scale : Nat} {r : ℚ} (rounds : Rounds (tenTo scale) r) (short : scale ≤ 22) :
    r = Tariff.tenTo scale := by
  have same : ((Tariff.tenTo scale : Nat) : ℚ) = (5 ^ scale : Nat) * 2 ^ (scale : ℤ) := by
    rw [Tariff.tenTo, zpow_natCast]
    push_cast
    rw [← mul_pow]
    norm_num
  rw [same] at rounds ⊢
  have small : 5 ^ scale ≤ 5 ^ 22 := Nat.pow_le_pow_right (by decide) short
  exact rounds.dyadic (lt_of_le_of_lt small (by decide)) (by omega)

theorem of_parts?_some {negative : Bool} {significand : Nat} {exponent : ℤ}
    (canonical : significand < twoTo 53 ∧ -1074 ≤ exponent ∧ exponent ≤ 971 ∧
      (twoTo 52 ≤ significand ∨ exponent = -1074)) :
    ∃ x, ofParts? negative significand exponent = some x := ⟨_, dif_pos canonical⟩

theorem nearest?_some (negative : Bool) (numerator : Nat) {denominator : Nat}
    (divides : 0 < denominator) (small : (numerator / denominator : ℚ) < 2 ^ (1000 : ℤ)) :
    ∃ x, nearest? negative numerator denominator = some x := by
  unfold nearest?
  split
  · exact ⟨_, rfl⟩
  · rename_i nonzero
    have last := leading_exponent_last_place (Nat.pos_of_ne_zero nonzero) divides
    dsimp only
    generalize max (leadingExponent numerator denominator) (-1074) = e at last ⊢
    have below : e < 948 := by
      rcases last.normal with smallest | normal
      · omega
      · have power : (2 : ℚ) ^ (52 + e) < 2 ^ (1000 : ℤ) := by
          rw [zpow_add₀ (by norm_num)]
          exact_mod_cast normal.trans_lt small
        rw [zpow_lt_zpow_iff_right₀ (by norm_num)] at power
        omega
    have least := last.least
    have few := last.le_two_to (by positivity)
    have unit : 0 < denominator * twoTo e.toNat := Nat.mul_pos divides (two_to_pos _)
    rw [← nearest_whole_div .toEven _ _ unit, scaled_ratio]
    split
    · exact of_parts?_some ⟨by decide, by omega, by omega, .inl le_rfl⟩
    · rename_i notFull
      refine of_parts?_some ⟨lt_of_le_of_ne few notFull, least, by omega, ?_⟩
      rcases last.normal with smallest | normal
      · exact .inr smallest
      · exact .inl (LastPlace.two_to_le normal)

section

variable {x y : Binary64}

theorem add_magnitudes?_some (small : x.magnitude + y.magnitude < 2 ^ (1000 : ℤ)) :
    ∃ z, x.addMagnitudes? y = some z ∧ Rounds (x.magnitude + y.magnitude) z.magnitude := by
  rw [← add_ratio] at small
  obtain ⟨z, made⟩ := nearest?_some false _ (Nat.mul_pos x.denominator_pos y.denominator_pos) small
  exact ⟨z, made, add_magnitudes?_rounds made⟩

theorem mul_magnitudes?_some (small : x.magnitude * y.magnitude < 2 ^ (1000 : ℤ)) :
    ∃ z, x.mulMagnitudes? y = some z ∧ Rounds (x.magnitude * y.magnitude) z.magnitude := by
  rw [← mul_ratio] at small
  obtain ⟨z, made⟩ := nearest?_some false _ (Nat.mul_pos x.denominator_pos y.denominator_pos) small
  exact ⟨z, made, mul_magnitudes?_rounds made⟩

theorem div_magnitudes?_some (divides : 0 < y.magnitude)
    (small : x.magnitude / y.magnitude < 2 ^ (1000 : ℤ)) :
    ∃ z, x.divMagnitudes? y = some z ∧ Rounds (x.magnitude / y.magnitude) z.magnitude := by
  rw [← div_ratio] at small
  obtain ⟨z, made⟩ :=
    nearest?_some false _ (Nat.mul_pos x.denominator_pos (numerator_pos divides)) small
  exact ⟨z, made, div_magnitudes?_rounds divides made⟩

theorem nearest?_whole_some {n : Nat} (small : (n : ℚ) < 2 ^ (1000 : ℤ)) :
    ∃ z, nearest? false n 1 = some z ∧ Rounds n z.magnitude := by
  obtain ⟨z, made⟩ := nearest?_some false n Nat.one_pos (by rwa [Nat.cast_one, div_one])
  exact ⟨z, made, nearest?_whole_rounds made⟩

theorem round_magnitude?_some
    (small : (nearestWhole .awayFromZero x.magnitude : ℚ) < 2 ^ (1000 : ℤ)) :
    ∃ z, x.roundMagnitude? = some z ∧
      Rounds (nearestWhole .awayFromZero x.magnitude) z.magnitude := by
  rw [← ratio_eq_magnitude, nearest_whole_div .awayFromZero _ _ x.denominator_pos] at small ⊢
  exact nearest?_whole_some small

end

end Binary64

end Tariff
