import Mathlib.Algebra.Order.Field.Rat
import Mathlib.Data.Rat.Lemmas
import Mathlib.Tactic.Linarith
import Mathlib.Tactic.Positivity
import Tariff.Decimal.Rounding

set_option autoImplicit false

namespace Tariff

theorem rounds_up_iff (tie : Tie) (quotient twice unit : Nat) :
    tie.roundsUp quotient twice unit = true ↔
      unit < twice ∨ twice = unit ∧ (tie = .awayFromZero ∨ quotient % 2 = 1) := by
  simp [Tie.roundsUp]

theorem round_quotient_mul_left (tie : Tie) (factor numerator denominator : Nat)
    (positive : 0 < factor) :
    roundQuotient tie (factor * numerator) (factor * denominator) =
      roundQuotient tie numerator denominator := by
  have same : tie.roundsUp (numerator / denominator)
      (2 * (factor * (numerator % denominator))) (factor * denominator) =
      tie.roundsUp (numerator / denominator) (2 * (numerator % denominator)) denominator := by
    rw [Bool.eq_iff_iff, rounds_up_iff, rounds_up_iff, Nat.mul_left_comm,
      Nat.mul_lt_mul_left positive, Nat.mul_right_inj positive.ne']
  unfold roundQuotient
  dsimp only
  rw [Nat.mul_div_mul_left _ _ positive, Nat.mul_mod_mul_left, same]

theorem round_quotient_one (tie : Tie) (numerator : Nat) :
    roundQuotient tie numerator 1 = numerator := by
  have down : tie.roundsUp numerator 0 1 = false := by simp [Tie.roundsUp]
  simp [roundQuotient, Nat.mod_one, down]

theorem div_le_round_quotient (tie : Tie) (numerator denominator : Nat) :
    numerator / denominator ≤ roundQuotient tie numerator denominator := by
  unfold roundQuotient
  dsimp only
  split
  · exact Nat.le_succ _
  · exact Nat.le_refl _

theorem round_quotient_le_succ (tie : Tie) (numerator denominator : Nat) :
    roundQuotient tie numerator denominator ≤ numerator / denominator + 1 := by
  unfold roundQuotient
  dsimp only
  split
  · exact Nat.le_refl _
  · exact Nat.le_succ _

theorem round_quotient_mono (tie : Tie) {small large : Nat} (denominator : Nat)
    (le : small ≤ large) :
    roundQuotient tie small denominator ≤ roundQuotient tie large denominator := by
  have quotients : small / denominator ≤ large / denominator := Nat.div_le_div_right le
  rcases Nat.lt_or_eq_of_le quotients with less | same
  · exact (round_quotient_le_succ tie small denominator).trans
      ((Nat.succ_le_of_lt less).trans (div_le_round_quotient tie large denominator))
  · have whole := Nat.div_add_mod small denominator
    have other := Nat.div_add_mod large denominator
    rw [same] at whole
    have remainders : small % denominator ≤ large % denominator := by omega
    unfold roundQuotient
    dsimp only
    rw [same]
    split
    · rename_i up
      have upper : tie.roundsUp (large / denominator) (2 * (large % denominator)) denominator =
          true := by
        rw [rounds_up_iff] at up ⊢
        rcases up with above | ⟨tied, decided⟩
        · left
          omega
        · rcases Nat.lt_or_eq_of_le remainders with less | equal
          · left
            omega
          · exact .inr ⟨equal ▸ tied, decided⟩
      rw [if_pos upper]
    · split
      · exact Nat.le_succ _
      · exact Nat.le_refl _

def nearestWhole (tie : Tie) (q : ℚ) : Nat := roundQuotient tie q.num.natAbs q.den

theorem nearest_whole_neg (tie : Tie) (q : ℚ) : nearestWhole tie (-q) = nearestWhole tie q := by
  simp [nearestWhole]

theorem nearest_whole_div (tie : Tie) (numerator denominator : Nat) (positive : 0 < denominator) :
    nearestWhole tie (numerator / denominator) = roundQuotient tie numerator denominator := by
  generalize quotient : (numerator / denominator : ℚ) = q
  have nonnegative : 0 ≤ q.num := by
    rw [Rat.num_nonneg, ← quotient]
    positivity
  have cross : numerator * q.den = q.num.natAbs * denominator := by
    have parts : (numerator / denominator : ℚ) = q.num / q.den := by rw [quotient, Rat.num_div_den]
    rw [div_eq_div_iff (by positivity) (by exact_mod_cast q.den_ne_zero)] at parts
    have whole : (numerator : ℤ) * q.den = q.num * denominator := by exact_mod_cast parts
    rw [← Int.natAbs_of_nonneg nonnegative] at whole
    exact_mod_cast whole
  calc nearestWhole tie q
      = roundQuotient tie (denominator * q.num.natAbs) (denominator * q.den) :=
        (round_quotient_mul_left tie _ _ _ positive).symm
    _ = roundQuotient tie (q.den * numerator) (q.den * denominator) := by
        rw [Nat.mul_comm denominator q.num.natAbs, ← cross, Nat.mul_comm numerator,
          Nat.mul_comm denominator]
    _ = roundQuotient tie numerator denominator :=
        round_quotient_mul_left tie _ _ _ q.den_pos

theorem nearest_whole_nat_cast (tie : Tie) (n : Nat) : nearestWhole tie n = n := by
  have quotient := nearest_whole_div tie n 1 Nat.one_pos
  rwa [Nat.cast_one, div_one, round_quotient_one] at quotient

theorem nearest_whole_mono (tie : Tie) {small large : ℚ} (nonnegative : 0 ≤ small)
    (le : small ≤ large) : nearestWhole tie small ≤ nearestWhole tie large := by
  have common (q : ℚ) (other : Nat) (apart : 0 < other) :
      nearestWhole tie q = roundQuotient tie (q.num.natAbs * other) (q.den * other) := by
    rw [Nat.mul_comm, Nat.mul_comm q.den]
    exact (round_quotient_mul_left tie _ _ _ apart).symm
  have cross : small.num.natAbs * large.den ≤ large.num.natAbs * small.den := by
    have cast := Rat.le_iff small large |>.mp le
    have first := Rat.num_nonneg.mpr nonnegative
    have second := Rat.num_nonneg.mpr (nonnegative.trans le)
    rw [← Int.natAbs_of_nonneg first, ← Int.natAbs_of_nonneg second] at cast
    exact_mod_cast cast
  rw [common small large.den large.den_pos, common large small.den small.den_pos,
    Nat.mul_comm large.den]
  exact round_quotient_mono tie _ cross

end Tariff
