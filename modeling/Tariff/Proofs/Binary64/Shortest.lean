import Tariff.Binary64.Shortest
import Tariff.Proofs.Binary64.Nearest
import Tariff.Proofs.Decimal.Value

set_option autoImplicit false

namespace Tariff

theorem ten_to_split (e : ℤ) : (tenTo e.toNat : ℚ) / tenTo (-e).toNat = 10 ^ e := by
  simp only [tenTo, Nat.pow_eq, Nat.cast_pow, Nat.cast_ofNat]
  exact zpow_split 10 (by norm_num) e

theorem to_digits_bounds {n : Nat} (positive : 0 < n) :
    tenTo ((Nat.toDigits 10 n).length - 1) ≤ n ∧ n < tenTo (Nat.toDigits 10 n).length := by
  have some : 0 < (Nat.toDigits 10 n).length := Nat.length_toDigits_pos
  constructor
  · by_contra less
    by_cases single : (Nat.toDigits 10 n).length - 1 = 0
    · rw [single, ten_to_zero] at less
      exact less positive
    · have fewer := (Nat.length_toDigits_le_iff (by decide) (Nat.pos_of_ne_zero single)).mpr
        (not_le.mp less)
      omega
  · exact (Nat.length_toDigits_le_iff (by decide) some).mp le_rfl

namespace Binary64

variable (x : Binary64)

def lower : ℚ := x.lowerEnd * 2 ^ (x.exponent - 2)

def upper : ℚ := x.upperEnd * 2 ^ (x.exponent - 2)

variable {x} in
theorem significand_large {y : Binary64} (less : y.exponent < x.exponent) :
    twoTo 52 ≤ x.significand ∧ y.magnitude < 2 ^ 52 * 2 ^ x.exponent := by
  obtain ⟨_, _, _, normal⟩ := x.canonical
  obtain ⟨small, least, _, _⟩ := y.canonical
  refine ⟨normal.resolve_right (by omega), ?_⟩
  have few : (y.significand : ℚ) < 2 ^ 53 := by exact_mod_cast small
  calc y.magnitude
      < 2 ^ 53 * 2 ^ y.exponent := mul_lt_mul_of_pos_right few (two_zpow_pos _)
    _ ≤ 2 ^ 52 * 2 ^ x.exponent := two_zpow_succ_le less

variable {x} in
theorem exponent_mono {y : Binary64} (le : x.magnitude ≤ y.magnitude) : x.exponent ≤ y.exponent := by
  by_contra greater
  obtain ⟨large, below⟩ := significand_large (not_le.mp greater)
  have many : (2 ^ 52 : ℚ) ≤ x.significand := by exact_mod_cast large
  have above : 2 ^ 52 * 2 ^ x.exponent ≤ x.magnitude :=
    mul_le_mul_of_nonneg_right many (two_zpow_pos _).le
  linarith

theorem quarter_mul (e : ℤ) : (2 : ℚ) ^ (e - 2) * 4 = 2 ^ e := by
  rw [zpow_sub₀ (by norm_num)]
  norm_num

variable {x} in
theorem upper_mono {y : Binary64} (le : x.magnitude ≤ y.magnitude) : x.upper ≤ y.upper := by
  have ends (z : Binary64) : z.upper = z.magnitude + 2 * 2 ^ (z.exponent - 2) := by
    have quarter := quarter_mul z.exponent
    rw [upper, upperEnd, magnitude, ← quarter]
    push_cast
    ring
  have places : (2 : ℚ) ^ (x.exponent - 2) ≤ 2 ^ (y.exponent - 2) :=
    zpow_le_zpow_right₀ (by norm_num) (by have := exponent_mono le; omega)
  rw [ends, ends]
  linarith

variable {x} in
theorem lower_end_mono {y : Binary64} (same : y.exponent = x.exponent)
    (le : y.significand ≤ x.significand) : y.lowerEnd ≤ x.lowerEnd := by
  unfold lowerEnd
  rw [same]
  split <;> split <;> omega

variable {x} in
theorem lower_mono {y : Binary64} (le : y.magnitude ≤ x.magnitude) : y.lower ≤ x.lower := by
  rcases (exponent_mono le).lt_or_eq with less | same
  · have ends : y.lowerEnd ≤ 2 * x.lowerEnd := by
      obtain ⟨large, _⟩ := significand_large less
      obtain ⟨small, _⟩ := y.canonical
      have most : y.lowerEnd ≤ 4 * y.significand - 1 := by unfold lowerEnd; split <;> omega
      have least : 4 * x.significand - 2 ≤ x.lowerEnd := by unfold lowerEnd; split <;> omega
      have half : twoTo 52 = 4503599627370496 := rfl
      have full : twoTo 53 = 9007199254740992 := rfl
      omega
    have places : (2 : ℚ) ^ (y.exponent - 2) * 2 ≤ 2 ^ (x.exponent - 2) := by
      rw [← zpow_add_one₀ (by norm_num)]
      exact zpow_le_zpow_right₀ (by norm_num) (by omega)
    calc y.lower
        ≤ 2 * x.lowerEnd * 2 ^ (y.exponent - 2) :=
          mul_le_mul_of_nonneg_right (by exact_mod_cast ends) (two_zpow_pos _).le
      _ = x.lowerEnd * (2 ^ (y.exponent - 2) * 2) := by ring
      _ ≤ x.lower := mul_le_mul_of_nonneg_left places (Nat.cast_nonneg _)
  · have significands : y.significand ≤ x.significand := by
      rw [magnitude, magnitude, same] at le
      exact_mod_cast le_of_mul_le_mul_right le (two_zpow_pos _)
    rw [lower, lower, same]
    exact mul_le_mul_of_nonneg_right (by exact_mod_cast lower_end_mono same significands)
      (two_zpow_pos _).le

-- A number in the interval. An end is in it if the significand is even.
def Holds (q : ℚ) : Prop :=
  (x.lower < q ∨ x.significand % 2 = 0 ∧ x.lower = q) ∧
    (q < x.upper ∨ x.significand % 2 = 0 ∧ x.upper = q)

variable {x} in
theorem Holds.between {q : ℚ} (held : x.Holds q) : x.lower ≤ q ∧ q ≤ x.upper := by
  obtain ⟨above, below⟩ := held
  constructor
  · rcases above with less | ⟨_, same⟩
    · exact less.le
    · exact same.le
  · rcases below with less | ⟨_, same⟩
    · exact less.le
    · exact same.ge

-- Both ends and the digits are compared in a unit that has no fraction.
theorem reads_back_iff (power : ℤ) (digits : Nat) :
    x.readsBack power digits = true ↔ x.Holds (digits * 10 ^ power) := by
  have unit : (0 : ℚ) < tenTo (-power).toNat * twoTo (2 - x.exponent).toNat := by
    exact_mod_cast Nat.mul_pos (ten_to_pos _) (two_to_pos _)
  have ends (quarters : Nat) : (quarters * 2 ^ (x.exponent - 2) : ℚ) =
      (quarters * x.quarterUp power : Nat) /
        (tenTo (-power).toNat * twoTo (2 - x.exponent).toNat) := by
    rw [← two_to_split, neg_sub, quarterUp]
    have ten := ten_to_ne_zero_rat (-power).toNat
    push_cast
    field_simp
  have point : (digits * 10 ^ power : ℚ) = (digits * x.quarterDown power : Nat) /
      (tenTo (-power).toNat * twoTo (2 - x.exponent).toNat) := by
    rw [← ten_to_split, quarterDown]
    have two : (twoTo (2 - x.exponent).toNat : ℚ) ≠ 0 := by exact_mod_cast (two_to_pos _).ne'
    push_cast
    field_simp
  unfold Holds lower upper
  rw [ends, ends, point, div_lt_div_iff_of_pos_right unit, div_lt_div_iff_of_pos_right unit,
    div_left_inj' unit.ne', div_left_inj' unit.ne', Nat.cast_lt, Nat.cast_lt, Nat.cast_inj,
    Nat.cast_inj]
  simp only [readsBack, Bool.and_eq_true, Bool.or_eq_true, decide_eq_true_eq, beq_iff_eq]

theorem exact_ratio (power : ℤ) :
    ((4 * x.significand * x.quarterUp power : Nat) : ℚ) / x.quarterDown power =
      x.magnitude / 10 ^ power := by
  have two : (twoTo (2 - x.exponent).toNat : ℚ) ≠ 0 := by exact_mod_cast (two_to_pos _).ne'
  have ten := ten_to_ne_zero_rat power.toNat
  rw [magnitude, ← quarter_mul, ← ten_to_split, ← two_to_split, neg_sub, quarterUp, quarterDown]
  push_cast
  field_simp

theorem neighbour?_spec {tie : Tie} {power : ℤ} {digits : Nat}
    (found : x.neighbour? tie power = some digits) :
    x.readsBack power digits = true ∧
      digits ≤ 4 * x.significand * x.quarterUp power / x.quarterDown power + 1 := by
  unfold neighbour? at found
  dsimp only at found
  split at found
  · rename_i back
    cases found
    exact ⟨back, round_quotient_le_succ _ _ _⟩
  · split at found
    · rename_i back
      cases found
      exact ⟨back, Nat.le_succ _⟩
    · split at found
      · rename_i back
        cases found
        exact ⟨back, le_rfl⟩
      · cases found

theorem neighbour?_few {tie : Tie} {power : ℤ} {digits : Nat} (more : Nat)
    (found : x.neighbour? tie power = some digits) (small : x.magnitude < 10 ^ (power + more)) :
    digits ≤ tenTo more := by
  have unit : 0 < x.quarterDown power := Nat.mul_pos (ten_to_pos _) (two_to_pos _)
  have below : 4 * x.significand * x.quarterUp power / x.quarterDown power < tenTo more := by
    rw [Nat.div_lt_iff_lt_mul unit, Nat.mul_comm (tenTo more)]
    have ratio : ((4 * x.significand * x.quarterUp power : Nat) : ℚ) / x.quarterDown power <
        tenTo more := by
      rw [exact_ratio, div_lt_iff₀ (by positivity), tenTo]
      rw [zpow_add₀ (by norm_num), zpow_natCast] at small
      simpa [mul_comm] using small
    rw [div_lt_iff₀ (by exact_mod_cast unit)] at ratio
    exact_mod_cast (mul_comm (tenTo more : ℚ) _) ▸ ratio
  have spec := (x.neighbour?_spec found).2
  omega

theorem ratio_lt_digits {numerator denominator : Nat} (large : denominator ≤ numerator)
    (divides : 0 < denominator) :
    (numerator / denominator : ℚ) <
      10 ^ ((Nat.toDigits 10 (numerator / denominator)).length : ℤ) := by
  have below : (0 : ℚ) < denominator := by exact_mod_cast divides
  have less := (to_digits_bounds (Nat.div_pos large divides)).2
  rw [Nat.div_lt_iff_lt_mul divides] at less
  rw [zpow_natCast, div_lt_iff₀ below]
  exact_mod_cast less

theorem ratio_le_zeros {numerator denominator zeros : Nat} (divides : 0 < denominator)
    (most : numerator * tenTo zeros ≤ denominator) :
    (numerator / denominator : ℚ) ≤ 10 ^ (-(zeros : ℤ)) ∧
      (numerator * tenTo zeros ≠ denominator →
        (numerator / denominator : ℚ) < 10 ^ (-(zeros : ℤ))) := by
  have power : (10 : ℚ) ^ (-(zeros : ℤ)) = 1 / tenTo zeros := by
    rw [zpow_neg, zpow_natCast, one_div]
    simp [tenTo]
  have below : (0 : ℚ) < denominator := by exact_mod_cast divides
  have ten := ten_to_pos_rat zeros
  rw [power, div_le_div_iff₀ below ten, div_lt_div_iff₀ below ten, one_mul]
  constructor
  · exact_mod_cast most
  · intro inexact
    exact_mod_cast lt_of_le_of_ne most inexact

theorem ratio_lt_leading_power {numerator denominator : Nat} (positive : 0 < numerator)
    (divides : 0 < denominator) :
    (numerator / denominator : ℚ) < 10 ^ (leadingPower numerator denominator + 1) := by
  unfold leadingPower
  dsimp only
  split
  · rename_i large
    rw [sub_add_cancel]
    exact ratio_lt_digits large divides
  · rename_i small
    have some : 0 < denominator / numerator := Nat.div_pos (not_le.mp small).le positive
    have digits : 0 < (Nat.toDigits 10 (denominator / numerator)).length := Nat.length_toDigits_pos
    have most := (to_digits_bounds some).1
    rw [Nat.le_div_iff_mul_le positive, Nat.mul_comm] at most
    generalize (Nat.toDigits 10 (denominator / numerator)).length = count at digits most ⊢
    obtain ⟨zeros, same⟩ : ∃ zeros, count = zeros + 1 := ⟨count - 1, by omega⟩
    subst same
    have place : ((zeros + 1 : ℕ) - 1 : ℤ).toNat = zeros := by omega
    rw [place]
    obtain ⟨le, less⟩ := ratio_le_zeros divides most
    split
    · have more : 1 - ((zeros + 1 : ℕ) : ℤ) + 1 = -zeros + 1 := by omega
      rw [more, zpow_add_one₀ (by norm_num)]
      exact le.trans_lt (lt_mul_of_one_lt_right (by positivity) (by norm_num))
    · rename_i inexact
      have more : -((zeros + 1 : ℕ) : ℤ) + 1 = -zeros := by omega
      rw [more]
      exact less inexact

theorem magnitude_lt_leading_power (nonzero : x.isZero = false) :
    x.magnitude < 10 ^ (leadingPower x.numerator x.denominator + 1) := by
  have some : 0 < x.significand := Nat.pos_of_ne_zero (beq_eq_false_iff_ne.mp nonzero)
  rw [← ratio_eq_magnitude]
  exact ratio_lt_leading_power (Nat.mul_pos some (two_to_pos _)) x.denominator_pos

theorem value_drop_zero {digits : Nat} (even : digits % 10 = 0) (power : ℤ) :
    ((digits / 10 : ℕ) : ℚ) * 10 ^ (power + 1) = digits * 10 ^ power := by
  have tenth : (digits : ℚ) = (digits / 10 : ℕ) * 10 := by
    exact_mod_cast (Nat.div_mul_cancel (Nat.dvd_of_mod_eq_zero even)).symm
  rw [tenth, zpow_add_one₀ (by norm_num)]
  ring

-- Where no grid had a neighbour inside the interval, a zero would be written.
theorem shortest_spec (tie : Tie) :
    (x.shortest tie).1 ≤ tenTo 17 ∧
      (x.shortest tie = (0, 0) ∨
        x.lower ≤ (x.shortest tie).1 * 10 ^ (x.shortest tie).2 ∧
          ((x.shortest tie).1 * 10 ^ (x.shortest tie).2 : ℚ) ≤ x.upper) := by
  unfold shortest
  dsimp only
  split
  · exact ⟨Nat.zero_le _, .inl rfl⟩
  · rename_i nonzero
    split
    · exact ⟨Nat.zero_le _, .inl rfl⟩
    · rename_i digits power found
      obtain ⟨more, member, made⟩ := List.exists_of_findSome?_eq_some found
      obtain ⟨taken, neighbour, same⟩ := Option.map_eq_some_iff.mp made
      cases same
      have within := magnitude_lt_leading_power x (Bool.eq_false_iff.mpr nonzero)
      generalize leadingPower x.numerator x.denominator = first at neighbour within ⊢
      have few : digits ≤ tenTo (more + 1) := by
        refine x.neighbour?_few (more + 1) neighbour ?_
        convert within using 2
        push_cast
        ring
      have most : digits ≤ tenTo 17 :=
        few.trans (Nat.pow_le_pow_right (by decide) (List.mem_range.mp member))
      have between := ((x.reads_back_iff _ _).mp (x.neighbour?_spec neighbour).1).between
      split
      · rename_i even
        rw [value_drop_zero even]
        exact ⟨(Nat.div_le_self _ _).trans most, .inr between⟩
      · exact ⟨most, .inr between⟩

end Binary64

end Tariff
