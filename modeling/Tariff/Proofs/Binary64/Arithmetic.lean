import Tariff.Proofs.Binary64.Nearest

set_option autoImplicit false

namespace Tariff.Binary64

variable {x y z : Binary64}

theorem add_ratio :
    ((x.numerator * y.denominator + y.numerator * x.denominator : Nat) /
      (x.denominator * y.denominator : Nat) : ℚ) = x.magnitude + y.magnitude := by
  have first : (x.denominator : ℚ) ≠ 0 := by exact_mod_cast x.denominator_pos.ne'
  have second : (y.denominator : ℚ) ≠ 0 := by exact_mod_cast y.denominator_pos.ne'
  rw [← ratio_eq_magnitude, ← ratio_eq_magnitude]
  push_cast
  field_simp

theorem mul_ratio :
    ((x.numerator * y.numerator : Nat) / (x.denominator * y.denominator : Nat) : ℚ) =
      x.magnitude * y.magnitude := by
  rw [← ratio_eq_magnitude, ← ratio_eq_magnitude]
  push_cast
  rw [div_mul_div_comm]

theorem div_ratio :
    ((x.numerator * y.denominator : Nat) / (x.denominator * y.numerator : Nat) : ℚ) =
      x.magnitude / y.magnitude := by
  rw [← ratio_eq_magnitude, ← ratio_eq_magnitude]
  push_cast
  rw [div_div_div_eq]

theorem numerator_pos (positive : 0 < x.magnitude) : 0 < x.numerator := by
  rw [← ratio_eq_magnitude] at positive
  by_contra zero
  rw [Nat.eq_zero_of_not_pos zero, Nat.cast_zero, zero_div] at positive
  exact absurd positive (lt_irrefl 0)

theorem add_magnitudes?_rounds (made : x.addMagnitudes? y = some z) :
    Rounds (x.magnitude + y.magnitude) z.magnitude := by
  have rounds := nearest?_rounds (Nat.mul_pos x.denominator_pos y.denominator_pos) made
  rwa [add_ratio] at rounds

theorem mul_magnitudes?_rounds (made : x.mulMagnitudes? y = some z) :
    Rounds (x.magnitude * y.magnitude) z.magnitude := by
  have rounds := nearest?_rounds (Nat.mul_pos x.denominator_pos y.denominator_pos) made
  rwa [mul_ratio] at rounds

theorem div_magnitudes?_rounds (divides : 0 < y.magnitude) (made : x.divMagnitudes? y = some z) :
    Rounds (x.magnitude / y.magnitude) z.magnitude := by
  have rounds := nearest?_rounds (Nat.mul_pos x.denominator_pos (numerator_pos divides)) made
  rwa [div_ratio] at rounds

theorem round_magnitude?_rounds (made : x.roundMagnitude? = some z) :
    Rounds (nearestWhole .awayFromZero x.magnitude) z.magnitude := by
  have rounds := nearest?_rounds Nat.one_pos made
  rwa [Nat.cast_one, div_one, ← nearest_whole_div .awayFromZero _ _ x.denominator_pos,
    ratio_eq_magnitude] at rounds

theorem nearest?_whole_rounds {n : Nat} {negative : Bool} (made : nearest? negative n 1 = some z) :
    Rounds n z.magnitude := by
  have rounds := nearest?_rounds Nat.one_pos made
  rwa [Nat.cast_one, div_one] at rounds

theorem rounds_two_pow (k : Nat) : Rounds (2 ^ k) (2 ^ k) := by
  have exact := @rounds_exact (2 ^ 52) (k - 52) (by decide) (by omega) (.inr le_rfl)
  have same : (((2 ^ 52 : ℕ) : ℚ) * 2 ^ ((k : ℤ) - 52)) = 2 ^ k := by
    rw [zpow_sub₀ (by norm_num), zpow_natCast]
    norm_num
    ring
  rwa [same] at exact

theorem rounds_one : Rounds 1 1 := by
  have one := rounds_two_pow 0
  rwa [pow_zero] at one

theorem full_of_one_le (large : 1 ≤ x.magnitude) :
    2 ^ 52 ≤ x.significand ∧ -53 < x.exponent := by
  obtain ⟨small, least, _, normal⟩ := x.canonical
  have few : (x.significand : ℚ) < 2 ^ 53 := by exact_mod_cast small
  have above : -53 < x.exponent := by
    have product : (1 : ℚ) < 2 ^ 53 * 2 ^ x.exponent :=
      large.trans_lt (mul_lt_mul_of_pos_right few (two_zpow_pos _))
    have power : (2 : ℚ) ^ (0 : ℤ) < 2 ^ (53 + x.exponent) := by
      rw [zpow_add₀ (by norm_num)]
      exact_mod_cast product
    rw [zpow_lt_zpow_iff_right₀ (by norm_num)] at power
    omega
  exact ⟨normal.resolve_right (by omega), above⟩

theorem rounds_doubled (large : 1 ≤ x.magnitude) (k : Nat) :
    Rounds (2 ^ k * x.magnitude) (2 ^ k * x.magnitude) := by
  obtain ⟨full, above⟩ := full_of_one_le large
  obtain ⟨small, _⟩ := x.canonical
  have exact := rounds_exact (e := x.exponent + k) small (by omega) (.inr full)
  have same : (x.significand * 2 ^ (x.exponent + k) : ℚ) = 2 ^ k * x.magnitude := by
    rw [zpow_add₀ (by norm_num), zpow_natCast, magnitude]
    ring
  rwa [same] at exact

theorem doubled_whole (large : 1 ≤ x.magnitude) {k : Nat} (enough : 53 ≤ k) :
    ∃ n : Nat, 2 ^ k * x.magnitude = n := by
  obtain ⟨_, above⟩ := full_of_one_le large
  obtain ⟨zeros, same⟩ : ∃ zeros : Nat, x.exponent + k = zeros :=
    Int.eq_ofNat_of_zero_le (by omega)
  refine ⟨x.significand * 2 ^ zeros, ?_⟩
  push_cast
  rw [magnitude, ← zpow_natCast 2 zeros, ← same, zpow_add₀ (by norm_num), zpow_natCast]
  ring

end Tariff.Binary64
