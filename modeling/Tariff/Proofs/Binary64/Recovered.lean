import Tariff.Proofs.Binary64.Error
import Tariff.Proofs.Binary64.Shortest

/-! If a number has fifteen digits at most, the interval of the binary number that it is rounded to
holds no other number with as many places, so its digits are found again. -/

set_option autoImplicit false

namespace Tariff.Binary64

variable {x : Binary64} {q r : ℚ}

theorem canonical_unique {n : Nat} {e : ℤ} (small : n < 2 ^ 53) (least : -1074 ≤ e)
    (normal : e = -1074 ∨ 2 ^ 52 ≤ n) (same : x.magnitude = n * 2 ^ e) :
    x.exponent = e ∧ x.significand = n := by
  obtain ⟨few, lowest, _, full⟩ := x.canonical
  have ownBelow : x.magnitude < 2 ^ 53 * 2 ^ x.exponent :=
    mul_lt_mul_of_pos_right (by exact_mod_cast few) (two_zpow_pos _)
  have below : (n * 2 ^ e : ℚ) < 2 ^ 53 * 2 ^ e :=
    mul_lt_mul_of_pos_right (by exact_mod_cast small) (two_zpow_pos _)
  rcases lt_trichotomy x.exponent e with less | equal | greater
  · have many : (2 ^ 52 : ℚ) ≤ n := by exact_mod_cast normal.resolve_left (by omega)
    have above := mul_le_mul_of_nonneg_right many (two_zpow_pos e).le
    have apart := two_zpow_succ_le less
    linarith
  · refine ⟨equal, ?_⟩
    rw [magnitude, equal] at same
    exact_mod_cast mul_right_cancel₀ (two_zpow_pos e).ne' same
  · have many : (2 ^ 52 : ℚ) ≤ x.significand := by exact_mod_cast full.resolve_right (by omega)
    have above : 2 ^ 52 * 2 ^ x.exponent ≤ x.magnitude :=
      mul_le_mul_of_nonneg_right many (two_zpow_pos _).le
    have apart := two_zpow_succ_le greater
    linarith

theorem holds_of_quarters {places : ℚ}
    (above : (x.lowerEnd : ℚ) < 4 * places ∨ x.significand % 2 = 0 ∧ (x.lowerEnd : ℚ) = 4 * places)
    (below : 4 * places < x.upperEnd ∨ x.significand % 2 = 0 ∧ (x.upperEnd : ℚ) = 4 * places) :
    x.Holds (places * 2 ^ x.exponent) := by
  have quarter : places * 2 ^ x.exponent = 4 * places * 2 ^ (x.exponent - 2) := by
    rw [← quarter_mul x.exponent]
    ring
  have unit := two_zpow_pos (x.exponent - 2)
  unfold Holds lower upper
  rw [quarter, mul_lt_mul_iff_left₀ unit, mul_lt_mul_iff_left₀ unit,
    mul_left_inj' unit.ne', mul_left_inj' unit.ne']
  exact ⟨above, below⟩

-- Half a last place away at most, and with an even significand if it is as much.
theorem holds_near (nonzero : x.isZero = false) {places : ℚ}
    (near : |(x.significand : ℚ) - places| ≤ 1 / 2)
    (tied : |(x.significand : ℚ) - places| = 1 / 2 → x.significand % 2 = 0)
    (normal : x.exponent = -1074 ∨ 2 ^ 52 ≤ places) : x.Holds (places * 2 ^ x.exponent) := by
  have bounds := abs_le.mp near
  have positive : 0 < x.significand := Nat.pos_of_ne_zero (beq_eq_false_iff_ne.mp nonzero)
  refine holds_of_quarters ?_ ?_
  · by_cases power : x.significand = twoTo 52 ∧ x.exponent ≠ -1074
    · left
      have above := normal.resolve_left power.2
      have least : x.significand = 4503599627370496 := power.1
      rw [lowerEnd, if_pos power, least]
      norm_num at above ⊢
      linarith
    · have ends : (x.lowerEnd : ℚ) = 4 * x.significand - 2 := by
        rw [lowerEnd, if_neg power]
        push_cast [show 2 ≤ 4 * x.significand by omega]
        ring
      rw [ends]
      rcases bounds.2.lt_or_eq with inside | half
      · left
        linarith
      · refine .inr ⟨tied (by rw [half, abs_of_pos (by norm_num)]), ?_⟩
        linarith
  · have ends : (x.upperEnd : ℚ) = 4 * x.significand + 2 := by
      rw [upperEnd]
      push_cast
      ring
    rw [ends]
    rcases bounds.1.lt_or_eq with inside | half
    · left
      linarith
    · refine .inr ⟨tied (by rw [← half, abs_neg, abs_of_pos (by norm_num)]), ?_⟩
      linarith

-- Rounded up to a power of two, the first number of its exponent, from places half as large.
theorem holds_carried (power : x.significand = twoTo 52 ∧ x.exponent ≠ -1074) {places : ℚ}
    (near : |(2 ^ 53 : ℚ) - places| ≤ 1 / 2) : x.Holds (places / 2 * 2 ^ x.exponent) := by
  have bounds := abs_le.mp near
  have significand : x.significand = 4503599627370496 := power.1
  have even : x.significand % 2 = 0 := by
    rw [significand]
  refine holds_of_quarters ?_ (.inl ?_)
  · have ends : (x.lowerEnd : ℚ) ≤ 4 * (places / 2) := by
      rw [lowerEnd, if_pos power, significand]
      norm_num at bounds ⊢
      linarith
    rcases ends.lt_or_eq with inside | half
    · exact .inl inside
    · exact .inr ⟨even, half⟩
  · rw [upperEnd, significand]
    norm_num at bounds ⊢
    linarith

theorem Rounds.holds (rounds : Rounds q x.magnitude) (nonnegative : 0 ≤ q)
    (nonzero : x.isZero = false) : x.Holds q := by
  obtain ⟨e, last, same⟩ := rounds
  have few := last.le_two_to nonnegative
  have scaled : 0 ≤ q / 2 ^ e := div_nonneg nonnegative (two_zpow_pos e).le
  have near := nearest_whole_near scaled .toEven
  have tied := nearest_whole_half scaled
  have places : q = q / 2 ^ e * 2 ^ e := (div_mul_cancel₀ _ (two_zpow_pos e).ne').symm
  have many : e = -1074 ∨ 2 ^ 52 ≤ q / 2 ^ e :=
    last.normal.imp_right (le_div_iff₀ (two_zpow_pos e)).mpr
  have normal := last.normal.imp_right fun normal => LastPlace.two_to_le normal
  have least := last.least
  generalize nearestWhole .toEven (q / 2 ^ e) = whole at few near tied normal same
  generalize q / 2 ^ e = ratio at near tied many places
  rw [places]
  rcases few.lt_or_eq with less | full
  · obtain ⟨rfl, rfl⟩ := canonical_unique less least normal same
    exact holds_near nonzero near tied many
  · have next : x.magnitude = (2 ^ 52 : Nat) * 2 ^ (e + 1) := by
      rw [same, full, zpow_add_one₀ (by norm_num)]
      push_cast
      ring
    obtain ⟨exponent, significand⟩ := canonical_unique (by decide) (by omega) (.inr le_rfl) next
    have doubled : ratio * 2 ^ e = ratio / 2 * 2 ^ x.exponent := by
      rw [exponent, zpow_add_one₀ (by norm_num)]
      ring
    rw [full] at near
    rw [doubled]
    exact holds_carried ⟨significand, by omega⟩ (by exact_mod_cast near)

theorem Holds.apart (held : x.Holds q) (alsoHeld : x.Holds r) : |q - r| ≤ 2 ^ x.exponent := by
  obtain ⟨least, most⟩ := held.between
  obtain ⟨alsoLeast, alsoMost⟩ := alsoHeld.between
  have ends : (x.upperEnd : ℚ) ≤ x.lowerEnd + 4 := by
    have whole : x.upperEnd ≤ x.lowerEnd + 4 := by
      unfold upperEnd lowerEnd
      split <;> omega
    exact_mod_cast whole
  have width : x.upper ≤ x.lower + 2 ^ x.exponent := by
    have scaled := mul_le_mul_of_nonneg_right ends (two_zpow_pos (x.exponent - 2)).le
    have quarter := quarter_mul x.exponent
    unfold upper lower
    linarith
  rw [abs_le]
  constructor
  · linarith
  · linarith

section

variable (nonzero : x.isZero = false)

include nonzero

theorem lower_lt_magnitude : x.lower < x.magnitude := by
  have positive : 0 < x.significand := Nat.pos_of_ne_zero (beq_eq_false_iff_ne.mp nonzero)
  have ends : (x.lowerEnd : ℚ) < 4 * x.significand := by
    have whole : x.lowerEnd < 4 * x.significand := by
      unfold lowerEnd
      split <;> omega
    exact_mod_cast whole
  have scaled := mul_lt_mul_of_pos_right ends (two_zpow_pos (x.exponent - 2))
  rw [magnitude, ← quarter_mul]
  unfold lower
  linarith

omit nonzero in
theorem magnitude_lt_upper : x.magnitude < x.upper := by
  have ends : (4 * x.significand : ℚ) < x.upperEnd := by
    unfold upperEnd
    push_cast
    linarith
  have scaled := mul_lt_mul_of_pos_right ends (two_zpow_pos (x.exponent - 2))
  rw [magnitude, ← quarter_mul]
  unfold upper
  linarith

omit nonzero in
theorem Holds.above (held : x.Holds r) (le : r ≤ q) (within : q ≤ x.magnitude) : x.Holds q := by
  refine ⟨?_, .inl (within.trans_lt magnitude_lt_upper)⟩
  rcases held.1 with less | ⟨even, same⟩
  · exact .inl (less.trans_le le)
  · rcases le.lt_or_eq with less | equal
    · exact .inl (same.trans_lt less)
    · exact .inr ⟨even, same.trans equal⟩

theorem Holds.below (held : x.Holds r) (le : q ≤ r) (within : x.magnitude ≤ q) : x.Holds q := by
  refine ⟨.inl ((lower_lt_magnitude nonzero).trans_le within), ?_⟩
  rcases held.2 with less | ⟨even, same⟩
  · exact .inl (le.trans_lt less)
  · rcases le.lt_or_eq with less | equal
    · exact .inl (less.trans_eq same.symm)
    · exact .inr ⟨even, same.trans equal.symm⟩

-- If anything on the grid is in the interval, a neighbour of the number is.
theorem neighbour?_some {power : ℤ} {digits : Nat} (held : x.Holds (digits * 10 ^ power))
    (tie : Tie) : ∃ found, x.neighbour? tie power = some found := by
  have ten : (0 : ℚ) < 10 ^ power := by positivity
  have unit : 0 < x.quarterDown power := Nat.mul_pos (ten_to_pos _) (two_to_pos _)
  have ratio := x.exact_ratio power
  have divides : (0 : ℚ) < x.quarterDown power := by exact_mod_cast unit
  rw [div_eq_div_iff divides.ne' ten.ne'] at ratio
  have split := Nat.div_add_mod (4 * x.significand * x.quarterUp power) (x.quarterDown power)
  have less := Nat.mod_lt (4 * x.significand * x.quarterUp power) unit
  unfold neighbour?
  dsimp only
  generalize 4 * x.significand * x.quarterUp power = exact at ratio split less ⊢
  have least : ((exact / x.quarterDown power : Nat) : ℚ) * 10 ^ power ≤ x.magnitude := by
    have whole : exact / x.quarterDown power * x.quarterDown power ≤ exact := Nat.div_mul_le_self _ _
    have scaled := mul_le_mul_of_nonneg_right
      (show ((exact / x.quarterDown power : Nat) : ℚ) * x.quarterDown power ≤ exact by
        exact_mod_cast whole) ten.le
    rw [ratio] at scaled
    refine le_of_mul_le_mul_right ?_ divides
    linarith
  have most : x.magnitude ≤ ((exact / x.quarterDown power + 1 : Nat) : ℚ) * 10 ^ power := by
    have whole : exact ≤ (exact / x.quarterDown power + 1) * x.quarterDown power := by
      rw [Nat.add_mul, Nat.one_mul, Nat.mul_comm]
      omega
    have scaled := mul_le_mul_of_nonneg_right
      (show (exact : ℚ) ≤ ((exact / x.quarterDown power + 1 : Nat) : ℚ) * x.quarterDown power by
        exact_mod_cast whole) ten.le
    rw [ratio] at scaled
    refine le_of_mul_le_mul_right ?_ divides
    linarith
  split
  · exact ⟨_, rfl⟩
  · split
    · exact ⟨_, rfl⟩
    · rename_i notBelow
      split
      · exact ⟨_, rfl⟩
      · rename_i notAbove
        rw [reads_back_iff] at notBelow notAbove
        rcases Nat.lt_or_ge (exact / x.quarterDown power) digits with greater | smaller
        · have le : ((exact / x.quarterDown power + 1 : Nat) : ℚ) ≤ digits := by
            exact_mod_cast greater
          exact absurd (held.below nonzero (mul_le_mul_of_nonneg_right le ten.le) most) notAbove
        · have le : (digits : ℚ) ≤ (exact / x.quarterDown power : Nat) := by exact_mod_cast smaller
          exact absurd (held.above (mul_le_mul_of_nonneg_right le ten.le) least) notBelow

end

theorem leading_power_le_ratio {numerator denominator : Nat} (positive : 0 < numerator)
    (divides : 0 < denominator) :
    (10 : ℚ) ^ leadingPower numerator denominator ≤ numerator / denominator := by
  have below : (0 : ℚ) < denominator := by exact_mod_cast divides
  unfold leadingPower
  dsimp only
  split
  · rename_i large
    have some : 0 < numerator / denominator := Nat.div_pos large divides
    have digits : 0 < (Nat.toDigits 10 (numerator / denominator)).length := Nat.length_toDigits_pos
    have most := (to_digits_bounds some).1
    rw [Nat.le_div_iff_mul_le divides] at most
    have place : ((Nat.toDigits 10 (numerator / denominator)).length : ℤ) - 1 =
        ((Nat.toDigits 10 (numerator / denominator)).length - 1 : Nat) := by omega
    rw [place, zpow_natCast, le_div_iff₀ below]
    exact_mod_cast most
  · rename_i small
    have some : 0 < denominator / numerator := Nat.div_pos (not_le.mp small).le positive
    have digits : 0 < (Nat.toDigits 10 (denominator / numerator)).length := Nat.length_toDigits_pos
    have most := (to_digits_bounds some).2
    generalize (Nat.toDigits 10 (denominator / numerator)).length = count at digits most ⊢
    have power (zeros : Nat) : (10 : ℚ) ^ (-(zeros : ℤ)) = 1 / tenTo zeros := by
      rw [zpow_neg, zpow_natCast, one_div]
      simp [tenTo]
    split
    · rename_i exact
      have place : 1 - (count : ℤ) = -((count - 1 : Nat) : ℤ) := by omega
      have zeros : ((count : ℤ) - 1).toNat = count - 1 := by omega
      rw [zeros] at exact
      have same : (numerator * tenTo (count - 1) : ℚ) = denominator := by exact_mod_cast exact
      rw [place, power, ← same, div_le_div_iff₀ (ten_to_pos_rat _) (same ▸ below), one_mul]
    · rw [power, div_le_div_iff₀ (ten_to_pos_rat _) below, one_mul]
      rw [Nat.div_lt_iff_lt_mul positive, Nat.mul_comm] at most
      exact_mod_cast most.le

theorem leading_power_le_magnitude (nonzero : x.isZero = false) :
    (10 : ℚ) ^ leadingPower x.numerator x.denominator ≤ x.magnitude := by
  have some : 0 < x.significand := Nat.pos_of_ne_zero (beq_eq_false_iff_ne.mp nonzero)
  rw [← ratio_eq_magnitude]
  exact leading_power_le_ratio (Nat.mul_pos some (two_to_pos _)) x.denominator_pos

-- The first grid that is tried with success is no finer than any other one with success.
theorem find_some?_range {α : Type} {f : Nat → Option α} {limit place : Nat} (inside : place < limit)
    {value : α} (found : f place = some value) :
    ∃ first ≤ place, ∃ value, (List.range limit).findSome? f = some value ∧ f first = some value := by
  obtain ⟨more, sum⟩ := Nat.exists_eq_add_of_lt inside
  have early : ((List.range (place + 1)).findSome? f).isSome := by
    rw [List.findSome?_isSome_iff]
    exact ⟨place, List.mem_range.mpr (Nat.lt_succ_self _), by rw [found]; rfl⟩
  obtain ⟨result, made⟩ := Option.isSome_iff_exists.mp early
  obtain ⟨first, member, same⟩ := List.exists_of_findSome?_eq_some made
  refine ⟨first, Nat.le_of_lt_succ (List.mem_range.mp member), result, ?_, same⟩
  rw [sum, show place + more + 1 = place + 1 + more by omega, List.range_add,
    List.findSome?_append, made, Option.some_or]

theorem ten_to_zpow (zeros : Nat) : (1 / tenTo zeros : ℚ) = 10 ^ (-(zeros : ℤ)) := by
  rw [zpow_neg, zpow_natCast, one_div]
  simp [tenTo]

theorem spacing_le (large : 2 ^ (-1022 : ℤ) ≤ q) (rounds : Rounds q x.magnitude) :
    (2 : ℚ) ^ x.exponent ≤ q / 2 ^ 51 := by
  have near := abs_le.mp (rounds.near large)
  rcases x.canonical.2.2.2 with full | least
  · have many : (2 ^ 52 : ℚ) ≤ x.significand := by exact_mod_cast full
    have above : 2 ^ 52 * 2 ^ x.exponent ≤ x.magnitude :=
      mul_le_mul_of_nonneg_right many (two_zpow_pos _).le
    linarith
  · have least : (2 : ℚ) ^ x.exponent = 2 ^ (-1022 : ℤ) / 2 ^ 52 := by
      rw [least, ← zpow_natCast, ← zpow_sub₀ (by norm_num)]
      norm_num
    have positive := two_zpow_pos (-1022)
    linarith

structure Short (x : Binary64) (mantissa scale : Nat) : Prop where
  positive : 0 < mantissa
  few : mantissa < 10 ^ 15
  places : scale ≤ 28
  rounds : Rounds (mantissa / tenTo scale) x.magnitude

namespace Short

variable {mantissa scale : Nat} (short : x.Short mantissa scale)

include short

theorem bounds : (10 : ℚ) ^ (-(scale : ℤ)) ≤ mantissa / tenTo scale ∧
    (mantissa / tenTo scale : ℚ) < 10 ^ 15 * 10 ^ (-(scale : ℤ)) := by
  have ten := ten_to_pos_rat scale
  rw [← ten_to_zpow, mul_one_div]
  constructor
  · exact div_le_div_of_nonneg_right (by exact_mod_cast short.positive) ten.le
  · exact div_lt_div_of_pos_right (by exact_mod_cast short.few) ten

theorem large : (2 : ℚ) ^ (-1022 : ℤ) ≤ mantissa / tenTo scale := by
  refine le_trans ?_ short.bounds.1
  have least : (10 : ℚ) ^ (-28 : ℤ) ≤ 10 ^ (-(scale : ℤ)) :=
    zpow_le_zpow_right₀ (by norm_num) (by have := short.places; omega)
  have power : (2 : ℚ) ^ (-1022 : ℤ) ≤ 2 ^ (-94 : ℤ) :=
    zpow_le_zpow_right₀ (by norm_num) (by norm_num)
  refine power.trans (le_trans ?_ least)
  norm_num

theorem magnitude_bounds : (10 : ℚ) ^ (-(scale : ℤ) - 1) < x.magnitude ∧
    x.magnitude < 10 ^ (16 - (scale : ℤ)) := by
  obtain ⟨least, most⟩ := short.bounds
  have near := abs_le.mp (short.rounds.near short.large)
  have unit : (0 : ℚ) < 10 ^ (-(scale : ℤ)) := by positivity
  constructor
  · rw [zpow_sub_one₀ (by norm_num)]
    linarith
  · rw [show (16 : ℤ) - scale = (16 : ℕ) + -(scale : ℤ) by push_cast; ring, zpow_add₀ (by norm_num),
      zpow_natCast]
    linarith

theorem nonzero : x.isZero = false := by
  cases zero : x.isZero with
  | false => rfl
  | true =>
      have above := short.magnitude_bounds.1
      rw [(magnitude_eq_zero_iff x).mpr zero] at above
      exact absurd above (not_lt.mpr (by positivity))

theorem holds : x.Holds (mantissa / tenTo scale) :=
  short.rounds.holds (by positivity) short.nonzero

theorem first_bounds : -(scale : ℤ) - 1 ≤ leadingPower x.numerator x.denominator ∧
    leadingPower x.numerator x.denominator + scale ≤ 15 := by
  obtain ⟨least, most⟩ := short.magnitude_bounds
  have above := least.trans (magnitude_lt_leading_power x short.nonzero)
  have below := (leading_power_le_magnitude short.nonzero).trans_lt most
  rw [zpow_lt_zpow_iff_right₀ (by norm_num)] at above below
  omega

-- On this grid lie the number itself and the first digits of the binary number.
def grid (x : Binary64) (scale : Nat) : ℤ :=
  min (-(scale : ℤ)) (leadingPower x.numerator x.denominator)

theorem spacing_lt_grid : (2 : ℚ) ^ x.exponent < 10 ^ grid x scale := by
  have spacing := spacing_le short.large short.rounds
  rcases min_choice (-(scale : ℤ)) (leadingPower x.numerator x.denominator) with same | same
  · have most := short.bounds.2
    have unit : (0 : ℚ) < 10 ^ (-(scale : ℤ)) := by positivity
    rw [grid, same]
    linarith
  · have near := abs_le.mp (short.rounds.near short.large)
    have most := magnitude_lt_leading_power x short.nonzero
    have unit : (0 : ℚ) < 10 ^ leadingPower x.numerator x.denominator := by positivity
    rw [grid, same]
    rw [zpow_add_one₀ (by norm_num)] at most
    linarith

omit short in
theorem on_grid (mantissa scale : Nat) : ∃ n : Nat, (mantissa / tenTo scale : ℚ) = n * 10 ^ grid x scale := by
  have below : grid x scale ≤ -(scale : ℤ) := min_le_left _ _
  obtain ⟨more, sum⟩ := Int.le.dest below
  refine ⟨mantissa * 10 ^ more, ?_⟩
  rw [← mul_one_div, ten_to_zpow, ← sum, zpow_add₀ (by norm_num), zpow_natCast]
  push_cast
  ring

-- Two numbers of the grid would be further apart than the interval is wide.
theorem recovered {digits : Nat} {power : ℤ} (coarse : grid x scale ≤ power)
    (held : x.Holds (digits * 10 ^ power)) : (digits * 10 ^ power : ℚ) = mantissa / tenTo scale := by
  obtain ⟨n, same⟩ := on_grid (x := x) mantissa scale
  obtain ⟨more, sum⟩ := Int.le.dest coarse
  have other : (digits * 10 ^ power : ℚ) = (digits * 10 ^ more : Nat) * 10 ^ grid x scale := by
    rw [← sum, zpow_add₀ (by norm_num), zpow_natCast]
    push_cast
    ring
  have apart := (held.apart short.holds).trans_lt short.spacing_lt_grid
  have unit : (0 : ℚ) < 10 ^ grid x scale := by positivity
  rw [other, same] at apart ⊢
  rw [← sub_mul, abs_mul, abs_of_pos unit] at apart
  have within : |((digits * 10 ^ more : Nat) : ℚ) - n| < 1 := by
    refine lt_of_mul_lt_mul_right ?_ unit.le
    linarith
  have equal : ((digits * 10 ^ more : Nat) : ℤ) - n = 0 := by
    rw [← Int.abs_lt_one_iff]
    exact_mod_cast within
  have whole : digits * 10 ^ more = n := by omega
  rw [whole]

theorem neighbour_on_grid (tie : Tie) :
    ∃ place : Nat, place < 17 ∧ leadingPower x.numerator x.denominator - place = grid x scale ∧
      ∃ digits, x.neighbour? tie (grid x scale) = some digits := by
  obtain ⟨n, same⟩ := on_grid (x := x) mantissa scale
  obtain ⟨lowest, highest⟩ := short.first_bounds
  obtain ⟨place, gap⟩ := Int.le.dest (show grid x scale ≤ leadingPower x.numerator x.denominator from
    min_le_right _ _)
  have held : x.Holds (n * 10 ^ grid x scale) := same ▸ short.holds
  refine ⟨place, ?_, by omega, neighbour?_some short.nonzero held tie⟩
  rcases min_choice (-(scale : ℤ)) (leadingPower x.numerator x.denominator) with same | same
  · unfold grid at gap
    omega
  · unfold grid at gap
    omega

theorem shortest (tie : Tie) :
    ((x.shortest tie).1 * 10 ^ (x.shortest tie).2 : ℚ) = mantissa / tenTo scale ∧
      -(scale : ℤ) - 1 ≤ (x.shortest tie).2 := by
  have coarse : -(scale : ℤ) - 1 ≤ grid x scale := le_min (by omega) short.first_bounds.1
  obtain ⟨place, inside, power, digits, neighbour⟩ := short.neighbour_on_grid tie
  obtain ⟨more, earlier, ⟨found, foundPower⟩, made, taken⟩ := find_some?_range
    (f := fun more : Nat => (x.neighbour? tie (leadingPower x.numerator x.denominator - more)).map
      fun digits => (digits, leadingPower x.numerator x.denominator - (more : ℤ)))
    inside (by rw [power, neighbour]; rfl)
  obtain ⟨_, first, pair⟩ := Option.map_eq_some_iff.mp taken
  cases pair
  have value := short.recovered (by omega) ((x.reads_back_iff _ _).mp (x.neighbour?_spec first).1)
  have nonzero : ¬x.isZero = true := by simp [short.nonzero]
  unfold Binary64.shortest
  dsimp only
  rw [if_neg nonzero, made]
  dsimp only
  split
  · rename_i even
    exact ⟨(value_drop_zero even _).trans value, by omega⟩
  · exact ⟨value, by omega⟩

end Short

end Tariff.Binary64
