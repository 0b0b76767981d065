import Mathlib.Algebra.Order.Field.Power
import Mathlib.Tactic.FieldSimp
import Mathlib.Tactic.Ring
import Tariff.Binary64.Basic
import Tariff.Proofs.Decimal.Nearest

set_option autoImplicit false

namespace Tariff

theorem zpow_split (base : ℚ) (nonzero : base ≠ 0) (e : ℤ) :
    base ^ e.toNat / base ^ (-e).toNat = base ^ e := by
  rw [← zpow_natCast, ← zpow_natCast, ← zpow_sub₀ nonzero]
  congr 1
  omega

theorem two_to_split (e : ℤ) : (twoTo e.toNat : ℚ) / twoTo (-e).toNat = 2 ^ e := by
  simp only [twoTo, Nat.pow_eq, Nat.cast_pow, Nat.cast_ofNat]
  exact zpow_split 2 (by norm_num) e

theorem two_to_pos (zeros : Nat) : 0 < twoTo zeros := Nat.pow_pos (by decide)

theorem two_zpow_pos (e : ℤ) : (0 : ℚ) < 2 ^ e := by positivity

namespace Binary64

def magnitude (x : Binary64) : ℚ := x.significand * 2 ^ x.exponent

theorem magnitude_nonneg (x : Binary64) : 0 ≤ x.magnitude := by
  unfold magnitude
  positivity

theorem magnitude_eq_zero_iff (x : Binary64) : x.magnitude = 0 ↔ x.isZero = true := by
  rw [magnitude, mul_eq_zero, or_iff_left (two_zpow_pos _).ne', Nat.cast_eq_zero, isZero, beq_iff_eq]

theorem denominator_pos (x : Binary64) : 0 < x.denominator := two_to_pos _

theorem ratio_eq_magnitude (x : Binary64) : (x.numerator / x.denominator : ℚ) = x.magnitude := by
  unfold numerator denominator magnitude
  rw [Nat.cast_mul, mul_div_assoc, two_to_split]

-- The place of the last binary digit that a number keeps.
structure LastPlace (q : ℚ) (e : ℤ) : Prop where
  least : -1074 ≤ e
  normal : e = -1074 ∨ 2 ^ 52 * 2 ^ e ≤ q
  below : q < 2 ^ 53 * 2 ^ e

def Rounds (q r : ℚ) : Prop :=
  ∃ e, LastPlace q e ∧ r = nearestWhole .toEven (q / 2 ^ e) * 2 ^ e

theorem LastPlace.le_two_to {q : ℚ} {e : ℤ} (last : LastPlace q e) (nonnegative : 0 ≤ q) :
    nearestWhole .toEven (q / 2 ^ e) ≤ 2 ^ 53 := by
  have below : q / 2 ^ e ≤ (2 ^ 53 : Nat) := by
    rw [div_le_iff₀ (two_zpow_pos e)]
    exact_mod_cast last.below.le
  have mono := nearest_whole_mono .toEven (by positivity) below
  rwa [nearest_whole_nat_cast] at mono

theorem LastPlace.two_to_le {q : ℚ} {e : ℤ} (normal : 2 ^ 52 * 2 ^ e ≤ q) :
    2 ^ 52 ≤ nearestWhole .toEven (q / 2 ^ e) := by
  have above : ((2 ^ 52 : Nat) : ℚ) ≤ q / 2 ^ e := by
    rw [le_div_iff₀ (two_zpow_pos e)]
    exact_mod_cast normal
  have mono := nearest_whole_mono .toEven (by positivity) above
  rwa [nearest_whole_nat_cast] at mono

theorem two_zpow_succ_le {e f : ℤ} (less : e < f) : (2 : ℚ) ^ 53 * 2 ^ e ≤ 2 ^ 52 * 2 ^ f := by
  have power : (2 : ℚ) ^ (e + 1) ≤ 2 ^ f := zpow_le_zpow_right₀ (by norm_num) less
  rw [zpow_add_one₀ (by norm_num)] at power
  linarith

theorem Rounds.mono {q r other s : ℚ} (rounds : Rounds q r) (roundsOther : Rounds other s)
    (nonnegative : 0 ≤ q) (le : q ≤ other) : r ≤ s := by
  obtain ⟨e, last, same⟩ := rounds
  obtain ⟨f, lastOther, sameOther⟩ := roundsOther
  subst same sameOther
  rcases lt_trichotomy e f with less | equal | greater
  · -- The last place of the larger number is not the least one, so its digits are all there.
    have normal : 2 ^ 52 * 2 ^ f ≤ other := by
      rcases lastOther.normal with least | normal
      · exact absurd (least ▸ less) (not_lt.mpr last.least)
      · exact normal
    have few : (nearestWhole .toEven (q / 2 ^ e) : ℚ) ≤ 2 ^ 53 := by
      exact_mod_cast last.le_two_to nonnegative
    have many : (2 ^ 52 : ℚ) ≤ nearestWhole .toEven (other / 2 ^ f) := by
      exact_mod_cast LastPlace.two_to_le normal
    calc (nearestWhole .toEven (q / 2 ^ e) : ℚ) * 2 ^ e
        ≤ 2 ^ 53 * 2 ^ e := mul_le_mul_of_nonneg_right few (two_zpow_pos e).le
      _ ≤ 2 ^ 52 * 2 ^ f := two_zpow_succ_le less
      _ ≤ nearestWhole .toEven (other / 2 ^ f) * 2 ^ f :=
          mul_le_mul_of_nonneg_right many (two_zpow_pos f).le
  · subst equal
    have quotients : q / 2 ^ e ≤ other / 2 ^ e := div_le_div_of_nonneg_right le (two_zpow_pos e).le
    have whole : (nearestWhole .toEven (q / 2 ^ e) : ℚ) ≤ nearestWhole .toEven (other / 2 ^ e) := by
      exact_mod_cast nearest_whole_mono .toEven (by positivity) quotients
    exact mul_le_mul_of_nonneg_right whole (two_zpow_pos e).le
  · have normal : 2 ^ 52 * 2 ^ e ≤ q := by
      rcases last.normal with least | normal
      · exact absurd (least ▸ greater) (not_lt.mpr lastOther.least)
      · exact normal
    have apart := two_zpow_succ_le greater
    have below := lastOther.below
    linarith

theorem rounds_exact {significand : Nat} {e : ℤ} (small : significand < 2 ^ 53) (least : -1074 ≤ e)
    (normal : e = -1074 ∨ 2 ^ 52 ≤ significand) :
    Rounds (significand * 2 ^ e) (significand * 2 ^ e) := by
  refine ⟨e, ⟨least, normal.imp_right fun large => ?_, ?_⟩, ?_⟩
  · exact mul_le_mul_of_nonneg_right (by exact_mod_cast large) (two_zpow_pos e).le
  · exact mul_lt_mul_of_pos_right (by exact_mod_cast small) (two_zpow_pos e)
  · rw [mul_div_cancel_right₀ _ (two_zpow_pos e).ne', nearest_whole_nat_cast]

theorem rounds_zero : Rounds 0 0 := by
  have zero := @rounds_exact 0 (-1074) (by decide) (by decide) (.inl rfl)
  simpa using zero

theorem scaled_ratio (numerator denominator : Nat) (e : ℤ) :
    ((numerator * twoTo (-e).toNat : Nat) : ℚ) / (denominator * twoTo e.toNat : Nat) =
      numerator / denominator / 2 ^ e := by
  rw [← two_to_split e]
  push_cast
  field_simp

theorem log2_bounds {n : Nat} (positive : 0 < n) :
    (2 : ℚ) ^ (Nat.log2 n : ℤ) ≤ n ∧ (n : ℚ) < 2 ^ (Nat.log2 n + 1 : ℤ) := by
  constructor
  · exact_mod_cast Nat.log2_self_le positive.ne'
  · exact_mod_cast Nat.lt_log2_self

-- The quotient of two logarithms is off by one at most.
theorem guess_bounds {numerator denominator : Nat} (positive : 0 < numerator)
    (divides : 0 < denominator) {guess : ℤ}
    (guessed : (Nat.log2 numerator : ℤ) - Nat.log2 denominator - 52 = guess) :
    (2 : ℚ) ^ 51 * 2 ^ guess < numerator / denominator ∧
      (numerator / denominator : ℚ) < 2 ^ 53 * 2 ^ guess := by
  obtain ⟨least, most⟩ := log2_bounds positive
  obtain ⟨leastBelow, mostBelow⟩ := log2_bounds divides
  have below : (0 : ℚ) < denominator := by exact_mod_cast divides
  have power (places : Nat) (e : ℤ) : (2 : ℚ) ^ places * 2 ^ e = 2 ^ ((places : ℤ) + e) := by
    rw [zpow_add₀ (by norm_num), zpow_natCast]
  rw [power, power, lt_div_iff₀ below, div_lt_iff₀ below]
  have lower : (2 : ℚ) ^ ((51 : ℕ) + guess : ℤ) * 2 ^ (Nat.log2 denominator + 1 : ℤ) =
      2 ^ (Nat.log2 numerator : ℤ) := by
    rw [← zpow_add₀ (by norm_num)]
    congr 1
    push_cast
    omega
  have upper : (2 : ℚ) ^ ((53 : ℕ) + guess : ℤ) * 2 ^ (Nat.log2 denominator : ℤ) =
      2 ^ (Nat.log2 numerator + 1 : ℤ) := by
    rw [← zpow_add₀ (by norm_num)]
    congr 1
    push_cast
    omega
  constructor
  · calc (2 : ℚ) ^ ((51 : ℕ) + guess : ℤ) * denominator
        < 2 ^ ((51 : ℕ) + guess : ℤ) * 2 ^ (Nat.log2 denominator + 1 : ℤ) :=
          mul_lt_mul_of_pos_left mostBelow (two_zpow_pos _)
      _ = 2 ^ (Nat.log2 numerator : ℤ) := lower
      _ ≤ numerator := least
  · calc (numerator : ℚ)
        < 2 ^ (Nat.log2 numerator + 1 : ℤ) := most
      _ = 2 ^ ((53 : ℕ) + guess : ℤ) * 2 ^ (Nat.log2 denominator : ℤ) := upper.symm
      _ ≤ 2 ^ ((53 : ℕ) + guess : ℤ) * denominator :=
          mul_le_mul_of_nonneg_left leastBelow (two_zpow_pos _).le

theorem leading_exponent_bounds {numerator denominator : Nat} (positive : 0 < numerator)
    (divides : 0 < denominator) :
    (2 : ℚ) ^ 52 * 2 ^ leadingExponent numerator denominator ≤ numerator / denominator ∧
      (numerator / denominator : ℚ) < 2 ^ 53 * 2 ^ leadingExponent numerator denominator := by
  unfold leadingExponent
  dsimp only
  generalize guessed : (Nat.log2 numerator : ℤ) - Nat.log2 denominator - 52 = guess
  obtain ⟨least, most⟩ := guess_bounds positive divides guessed
  have unit : 0 < denominator * twoTo guess.toNat := Nat.mul_pos divides (two_to_pos _)
  have enough : twoTo 52 ≤ numerator * twoTo (-guess).toNat / (denominator * twoTo guess.toNat) ↔
      (2 : ℚ) ^ 52 * 2 ^ guess ≤ numerator / denominator := by
    have units : (0 : ℚ) < (denominator * twoTo guess.toNat : Nat) := by exact_mod_cast unit
    have cast : ((twoTo 52 : Nat) : ℚ) = 2 ^ 52 := by norm_num [twoTo]
    rw [Nat.le_div_iff_mul_le unit, ← le_div_iff₀ (two_zpow_pos guess), ← scaled_ratio,
      le_div_iff₀ units, ← cast]
    exact_mod_cast Iff.rfl
  split
  · rename_i digits
    exact ⟨enough.mp digits, most⟩
  · rename_i digits
    have few := not_le.mp fun above => digits (enough.mpr above)
    have half : (2 : ℚ) ^ guess = 2 ^ (guess - 1) * 2 := by
      rw [← zpow_add_one₀ (by norm_num), sub_add_cancel]
    rw [half] at least few
    constructor
    · linarith
    · linarith

-- The significand may have been rounded up to the next power of two.
theorem of_parts?_magnitude {negative : Bool} {significand : Nat} {exponent : ℤ} {x : Binary64}
    (made : (if significand = twoTo 53 then ofParts? negative (twoTo 52) (exponent + 1)
      else ofParts? negative significand exponent) = some x) :
    x.magnitude = significand * 2 ^ exponent := by
  have parts {significand : Nat} {exponent : ℤ}
      (made : ofParts? negative significand exponent = some x) :
      x.magnitude = significand * 2 ^ exponent := by
    unfold ofParts? at made
    split at made
    · cases made
      rfl
    · cases made
  split at made
  · rename_i full
    rw [parts made, full, zpow_add_one₀ (by norm_num)]
    norm_num [twoTo]
    ring
  · exact parts made

theorem leading_exponent_last_place {numerator denominator : Nat} (positive : 0 < numerator)
    (divides : 0 < denominator) :
    LastPlace (numerator / denominator) (max (leadingExponent numerator denominator) (-1074)) := by
  obtain ⟨least, most⟩ := leading_exponent_bounds positive divides
  generalize leadingExponent numerator denominator = leading at least most ⊢
  refine ⟨le_max_right _ _, ?_, ?_⟩
  · rcases le_total leading (-1074) with low | high
    · exact .inl (max_eq_right low)
    · rw [max_eq_left high]
      exact .inr least
  · have power : (2 : ℚ) ^ leading ≤ 2 ^ max leading (-1074) :=
      zpow_le_zpow_right₀ (by norm_num) (le_max_left _ _)
    linarith

theorem nearest?_rounds {negative : Bool} {numerator denominator : Nat} {x : Binary64}
    (divides : 0 < denominator) (made : nearest? negative numerator denominator = some x) :
    Rounds (numerator / denominator) x.magnitude := by
  unfold nearest? at made
  split at made
  · rename_i zero
    cases made
    rw [zero]
    simpa [magnitude, Binary64.zero] using rounds_zero
  · rename_i nonzero
    have last := leading_exponent_last_place (Nat.pos_of_ne_zero nonzero) divides
    dsimp only at made
    generalize max (leadingExponent numerator denominator) (-1074) = e at last made
    have unit : 0 < denominator * twoTo e.toNat := Nat.mul_pos divides (two_to_pos _)
    refine ⟨e, last, ?_⟩
    rw [of_parts?_magnitude made, ← nearest_whole_div .toEven _ _ unit, scaled_ratio]

end Binary64

end Tariff
