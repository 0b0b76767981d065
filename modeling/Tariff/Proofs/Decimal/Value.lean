import Mathlib.Data.Sign.Basic
import Mathlib.Tactic.FieldSimp
import Mathlib.Tactic.Ring
import Tariff.Proofs.Decimal.Nearest

set_option autoImplicit false

namespace Tariff

theorem ten_to_pos_rat (zeros : Nat) : (0 : ℚ) < tenTo zeros := by exact_mod_cast ten_to_pos zeros

theorem ten_to_ne_zero_rat (zeros : Nat) : (tenTo zeros : ℚ) ≠ 0 := (ten_to_pos_rat zeros).ne'

theorem ten_to_add_rat (a b : Nat) : (tenTo (a + b) : ℚ) = tenTo a * tenTo b := by
  rw [ten_to_add, Nat.cast_mul]

namespace Decimal

def sign (negative : Bool) : ℚ := if negative then -1 else 1

theorem sign_ne_zero (negative : Bool) : sign negative ≠ 0 := by
  cases negative <;> norm_num [sign]

theorem sign_nat_abs (n : ℤ) : sign (decide (n < 0)) * n.natAbs = n := by
  by_cases negative : n < 0
  · have magnitude : (n.natAbs : ℤ) = -n := Int.ofNat_natAbs_of_nonpos negative.le
    rw [decide_eq_true negative, ← Int.cast_natCast n.natAbs, magnitude]
    simp [sign]
  · have magnitude : (n.natAbs : ℤ) = n := Int.natAbs_of_nonneg (not_lt.mp negative)
    rw [decide_eq_false negative, ← Int.cast_natCast n.natAbs, magnitude]
    simp [sign]

def value (d : Decimal) : ℚ := d.signed / tenTo d.scale

theorem value_parts (d : Decimal) : d.value = sign d.negative * (d.mantissa / tenTo d.scale) := by
  unfold value signed sign
  split
  · push_cast
    ring
  · push_cast
    ring

theorem abs_value (d : Decimal) : |d.value| = d.mantissa / tenTo d.scale := by
  have unsigned : |sign d.negative| = 1 := by cases d.negative <;> simp [sign]
  rw [value_parts, abs_mul, unsigned, one_mul, abs_of_nonneg (by positivity)]

theorem value_lt_iff (a b : Decimal) :
    a.value < b.value ↔ a.signed * tenTo b.scale < b.signed * tenTo a.scale := by
  rw [value, value, div_lt_div_iff₀ (ten_to_pos_rat _) (ten_to_pos_rat _)]
  exact_mod_cast Iff.rfl

theorem value_eq_iff (a b : Decimal) :
    a.value = b.value ↔ a.signed * tenTo b.scale = b.signed * tenTo a.scale := by
  rw [value, value, div_eq_div_iff (ten_to_ne_zero_rat _) (ten_to_ne_zero_rat _)]
  exact_mod_cast Iff.rfl

theorem same_iff (a b : Decimal) : a.same b = true ↔ a.value = b.value := by
  rw [value_eq_iff, same, beq_iff_eq]

theorem order_eq_compare (a b : Decimal) : a.order b = compare a.value b.value := by
  rcases lt_trichotomy a.value b.value with below | same | above
  · rw [compare_lt_iff_lt.mpr below]
    exact compare_lt_iff_lt.mpr ((value_lt_iff a b).mp below)
  · rw [compare_eq_iff_eq.mpr same]
    exact compare_eq_iff_eq.mpr ((value_eq_iff a b).mp same)
  · rw [compare_gt_iff_gt.mpr above]
    exact compare_gt_iff_gt.mpr ((value_lt_iff b a).mp above)

theorem order_swap (a b : Decimal) : (a.order b).swap = b.order a := Int.compare_swap _ _

theorem order_eq_iff (a b : Decimal) : a.order b = .eq ↔ a.same b = true := by
  rw [order_eq_compare, compare_eq_iff_eq, same_iff]

theorem is_zero_iff (d : Decimal) : d.isZero = true ↔ d.value = 0 := by
  rw [isZero, beq_iff_eq, value_parts]
  simp [sign_ne_zero, (ten_to_pos d.scale).ne']

theorem value_zero : zero.value = 0 := (is_zero_iff zero).mp rfl

theorem value_neg (d : Decimal) : d.neg.value = -d.value := by
  have scale : d.neg.scale = d.scale := rfl
  rw [value, value, signed_neg, scale]
  push_cast
  ring

theorem value_least (a b : Decimal) : (a.least b).value = min a.value b.value := by
  simp only [least, order_eq_compare, beq_iff_eq, compare_lt_iff_lt]
  split
  · rename_i less
    exact (min_eq_right less.le).symm
  · rename_i notLess
    exact (min_eq_left (not_lt.mp notLess)).symm

theorem value_greatest (a b : Decimal) : (a.greatest b).value = max a.value b.value := by
  simp only [greatest, order_eq_compare, beq_iff_eq, compare_lt_iff_lt]
  split
  · rename_i less
    exact (max_eq_right less.le).symm
  · rename_i notLess
    exact (max_eq_left (not_lt.mp notLess)).symm

def rounded (tie : Tie) (places : Nat) (q : ℚ) : ℚ :=
  SignType.sign q * (nearestWhole tie (q * tenTo places) / tenTo places)

theorem rounded_signed (tie : Tie) (places : Nat) (negative : Bool) (q : ℚ) (nonnegative : 0 ≤ q) :
    rounded tie places (sign negative * q) =
      sign negative * (nearestWhole tie (q * tenTo places) / tenTo places) := by
  unfold rounded
  rcases nonnegative.eq_or_lt with zero | positive
  · subst zero
    have whole : nearestWhole tie 0 = 0 := by exact_mod_cast nearest_whole_nat_cast tie 0
    simp [whole]
  · cases negative with
    | false => simp [sign, sign_pos positive]
    | true => simp [sign, Left.sign_neg, sign_pos positive, nearest_whole_neg]

theorem rounded_whole (tie : Tie) (places : Nat) (negative : Bool) (q : ℚ) (n : Nat)
    (whole : q * tenTo places = n) :
    rounded tie places (sign negative * q) = sign negative * q := by
  have same : q = n / tenTo places := (eq_div_iff (ten_to_ne_zero_rat places)).mpr whole
  have nonnegative : 0 ≤ q := by
    rw [same]
    positivity
  rw [rounded_signed tie places negative q nonnegative, whole, nearest_whole_nat_cast, ← same]

theorem rounded_exact (tie : Tie) (places : Nat) (q : ℚ) (n : ℤ) (whole : q * tenTo places = n) :
    rounded tie places q = q := by
  have nonzero := ten_to_ne_zero_rat places
  have same : q = sign (decide (n < 0)) * (n.natAbs / tenTo places) := by
    rw [← mul_div_assoc, sign_nat_abs, eq_div_iff nonzero, whole]
  rw [same, rounded_whole tie places _ _ n.natAbs (div_mul_cancel₀ _ nonzero)]

theorem mantissa_at (d : Decimal) (more : Nat) :
    (d.mantissa / tenTo d.scale : ℚ) * tenTo (d.scale + more) = (d.mantissa * tenTo more : Nat) := by
  have nonzero := ten_to_ne_zero_rat d.scale
  rw [ten_to_add_rat]
  push_cast
  field_simp

theorem value_shorten (tie : Tie) (places : Nat) (d : Decimal) :
    (d.shorten tie places).value = rounded tie places d.value := by
  by_cases short : d.scale ≤ places
  · have same : d.shorten tie places = d := dif_pos short
    obtain ⟨more, sum⟩ := Nat.exists_eq_add_of_le short
    rw [same, value_parts, rounded_whole tie places d.negative _ (d.mantissa * tenTo more)]
    rw [sum, mantissa_at]
  · obtain ⟨less, sum⟩ := Nat.exists_eq_add_of_lt (Nat.lt_of_not_le short)
    have dropped : d.scale - places = less + 1 := by omega
    have cut : (d.mantissa / tenTo d.scale : ℚ) * tenTo places =
        d.mantissa / tenTo (less + 1) := by
      have first := ten_to_ne_zero_rat places
      have second := ten_to_ne_zero_rat (less + 1)
      rw [sum, Nat.add_assoc, ten_to_add_rat]
      field_simp
    rw [value_parts d, rounded_signed tie places d.negative _ (by positivity), cut,
      nearest_whole_div tie _ _ (ten_to_pos _), value_parts, shorten, dif_neg short]
    simp only [dropped]

theorem value_round_to (tie : Tie) (places : Nat) (d : Decimal) :
    (d.roundTo tie places).value = rounded tie places d.value := by
  rw [← value_shorten]
  unfold roundTo
  dsimp only
  split
  · rename_i vanished
    have zero : (d.shorten tie places).isZero = true := (Bool.and_eq_true_iff.mp vanished).1
    have alsoZero : (d.shorten tie places).abs.isZero = true := zero
    rw [(is_zero_iff _).mp zero, (is_zero_iff _).mp alsoZero]
  · rfl

end Decimal

end Tariff
