import Mathlib.Algebra.Order.Field.Power
import Mathlib.Tactic.IntervalCases
import Tariff.Decimal.Arithmetic
import Tariff.Proofs.Decimal.Fitted

/-! Long division keeps a quotient and a remainder of the exact quotient at some scale, and ends with as
many digits as fit, so a quotient is rounded as sums and products are. -/

set_option autoImplicit false

namespace Tariff.Decimal

theorem ten_to_zpow (zeros : Nat) : (tenTo zeros : ℚ) = (10 : ℚ) ^ (zeros : ℤ) := by
  rw [zpow_natCast]
  exact_mod_cast rfl

theorem balance_div {divisor remainder : Nat} (quotient : Nat) (below : remainder < divisor) :
    (quotient * divisor + remainder) / divisor = quotient := by
  rw [Nat.mul_comm, Nat.mul_add_div (Nat.zero_lt_of_lt below), Nat.div_eq_of_lt below, Nat.add_zero]

theorem balance_mod {divisor remainder : Nat} (quotient : Nat) (below : remainder < divisor) :
    (quotient * divisor + remainder) % divisor = remainder := by
  rw [Nat.mul_comm, Nat.mul_add_mod, Nat.mod_eq_of_lt below]

-- The quotient and the remainder of `q`, moved by the scale.
structure Divided (q : ℚ) (divisor quotient remainder : Nat) (scale : Int) : Prop where
  balance : q * (10 : ℚ) ^ scale * divisor = quotient * divisor + remainder
  below : remainder < divisor

namespace Divided

variable {q : ℚ} {divisor quotient remainder : Nat} {scale : Int}

theorem quotient_le (divided : Divided q divisor quotient remainder scale) :
    (quotient : ℚ) ≤ q * (10 : ℚ) ^ scale := by
  have positive : (0 : ℚ) < divisor := by exact_mod_cast Nat.zero_lt_of_lt divided.below
  refine le_of_mul_le_mul_right ?_ positive
  rw [divided.balance]
  have nonnegative : (0 : ℚ) ≤ remainder := Nat.cast_nonneg remainder
  linarith

theorem at_places {places : Nat} (divided : Divided q divisor quotient remainder places) :
    q * tenTo places = (quotient * divisor + remainder : Nat) / divisor := by
  have positive : (0 : ℚ) < divisor := by exact_mod_cast Nat.zero_lt_of_lt divided.below
  rw [eq_div_iff positive.ne', ten_to_zpow, divided.balance]
  push_cast
  rfl

theorem tenfold_le (divided : Divided q divisor quotient remainder scale) :
    ((quotient * 10 : Nat) : ℚ) ≤ q * (10 : ℚ) ^ (scale + 1) := by
  rw [zpow_add₀ (by norm_num), zpow_one, ← mul_assoc]
  push_cast
  exact mul_le_mul_of_nonneg_right divided.quotient_le (by norm_num)

theorem extend (divided : Divided q divisor quotient remainder scale) (digits : Nat) :
    Divided q divisor (quotient * tenTo digits + remainder * tenTo digits / divisor)
      (remainder * tenTo digits % divisor) (scale + digits) := by
  refine ⟨?_, Nat.mod_lt _ (Nat.zero_lt_of_lt divided.below)⟩
  have split : ((remainder * tenTo digits / divisor : Nat) : ℚ) * divisor +
      (remainder * tenTo digits % divisor : Nat) = remainder * tenTo digits := by
    exact_mod_cast Nat.div_add_mod' (remainder * tenTo digits) divisor
  calc q * (10 : ℚ) ^ (scale + digits) * divisor
      = q * (10 : ℚ) ^ scale * divisor * tenTo digits := by
        rw [zpow_add₀ (by norm_num), ten_to_zpow]
        ring
    _ = quotient * tenTo digits * divisor + remainder * tenTo digits := by
        rw [divided.balance]
        ring
    _ = _ := by
        rw [← split]
        push_cast
        ring

end Divided

theorem not_fits {q : ℚ} {n : Nat} {scale : Int} {places : Nat} (large : maxMantissa < n)
    (le : (n : ℚ) ≤ q * (10 : ℚ) ^ scale) (further : scale ≤ places) : ¬Fits q places := by
  obtain ⟨more, sum⟩ := Int.le.dest further
  have power : (1 : ℚ) ≤ tenTo more := by exact_mod_cast ten_to_pos more
  have atPlaces : (n : ℚ) ≤ q * tenTo places := by
    calc (n : ℚ) ≤ q * (10 : ℚ) ^ scale := le
      _ ≤ q * (10 : ℚ) ^ scale * tenTo more :=
        le_mul_of_one_le_right ((Nat.cast_nonneg n).trans le) power
      _ = q * tenTo places := by
        rw [ten_to_zpow places, ← sum, zpow_add₀ (by norm_num), ten_to_zpow more, mul_assoc]
  intro fits
  have rounded := nearest_whole_mono .toEven (Nat.cast_nonneg n) atPlaces
  rw [nearest_whole_nat_cast] at rounded
  exact absurd (rounded.trans fits) (Nat.not_le_of_lt large)

-- How a quotient is rounded to one digit less, its remainder looked at only for being there.
theorem round_quotient_tenth (divisor quotient remainder : Nat) (below : remainder < divisor) :
    roundQuotient .toEven (quotient * divisor + remainder) (divisor * 10) =
      if 5 < quotient % 10 || (quotient % 10 == 5 && (remainder != 0 || quotient / 10 % 2 == 1))
      then quotient / 10 + 1 else quotient / 10 := by
  have tenth : (quotient * divisor + remainder) / (divisor * 10) = quotient / 10 := by
    rw [← Nat.div_div_eq_div_mul, balance_div quotient below]
  have rest : (quotient * divisor + remainder) % (divisor * 10) =
      remainder + divisor * (quotient % 10) := by
    rw [Nat.mod_mul, balance_div quotient below, balance_mod quotient below]
  have up : Tie.toEven.roundsUp (quotient / 10) (2 * (remainder + divisor * (quotient % 10)))
      (divisor * 10) =
      (decide (5 < quotient % 10) ||
        (quotient % 10 == 5 && (remainder != 0 || quotient / 10 % 2 == 1))) := by
    have digit := Nat.mod_lt quotient (show 0 < 10 by decide)
    rw [Bool.eq_iff_iff, rounds_up_iff]
    simp only [Bool.or_eq_true, Bool.and_eq_true, decide_eq_true_eq, beq_iff_eq, bne_iff_ne,
      reduceCtorEq, false_or, ne_eq]
    generalize quotient % 10 = last at digit ⊢
    interval_cases last <;> omega
  unfold roundQuotient
  dsimp only
  rw [tenth, rest, up]

theorem nearest_whole_tenth {q : ℚ} {divisor quotient remainder places : Nat}
    (divided : Divided q divisor quotient remainder (places + 1 : Nat)) :
    nearestWhole .toEven (q * tenTo places) =
      if 5 < quotient % 10 || (quotient % 10 == 5 && (remainder != 0 || quotient / 10 % 2 == 1))
      then quotient / 10 + 1 else quotient / 10 := by
  have positive := Nat.zero_lt_of_lt divided.below
  have tenth : q * tenTo places =
      (quotient * divisor + remainder : Nat) / (divisor * 10 : Nat) := by
    have longer := divided.at_places
    have nonzero : (divisor : ℚ) ≠ 0 := by exact_mod_cast positive.ne'
    rw [ten_to_succ, eq_div_iff nonzero] at longer
    rw [eq_div_iff (by exact_mod_cast (Nat.mul_pos positive (by decide)).ne'), ← longer]
    push_cast
    ring
  rw [tenth, nearest_whole_div _ _ _ (Nat.mul_pos positive (by decide)),
    round_quotient_tenth divisor quotient remainder divided.below]

-- What is left of an exact quotient is the best there is, or its whole part is too large.
def Settles (q : ℚ) : Option (Nat × Int) → Prop
  | some (mantissa, scale) =>
      ∃ places : Nat, scale = places ∧ Best q places ∧
        mantissa = nearestWhole .toEven (q * tenTo places)
  | none => ¬Fits q 0

theorem settle_small {quotient : Nat} (small : quotient ≤ maxMantissa) (excess : Bool)
    (scale : Int) : settle quotient excess scale = some (quotient, scale) := if_pos small

theorem settle_large {quotient : Nat} (large : maxMantissa < quotient) (excess : Bool) {scale : Int}
    (whole : scale ≤ 0) : settle quotient excess scale = none := by
  rw [settle, if_neg (Nat.not_le_of_lt large), if_pos whole]

theorem settle_shorter {quotient : Nat} (large : maxMantissa < quotient) (excess : Bool)
    (places : Nat) :
    settle quotient excess (places + 1 : Nat) =
      some (if 5 < quotient % 10 || (quotient % 10 == 5 && (excess || quotient / 10 % 2 == 1))
        then quotient / 10 + 1 else quotient / 10, (places : Int)) := by
  have shorter : ((places + 1 : Nat) : Int) - 1 = places := by omega
  rw [settle, if_neg (Nat.not_le_of_lt large), if_neg (by omega), shorter]

theorem exact_settles {q : ℚ} {divisor quotient : Nat} {scale : Int}
    (divided : Divided q divisor quotient 0 scale) (small : quotient ≤ maxMantissa)
    (nonnegative : 0 ≤ scale) (short : scale ≤ maxScale) :
    Settles q (some (quotient, scale)) := by
  obtain ⟨places, same⟩ := Int.eq_ofNat_of_zero_le nonnegative
  subst same
  have positive : (divisor : ℚ) ≠ 0 := by exact_mod_cast (Nat.zero_lt_of_lt divided.below).ne'
  have whole : q * tenTo places = quotient := by
    rw [divided.at_places]
    push_cast
    rw [add_zero, mul_div_cancel_right₀ _ positive]
  refine ⟨places, rfl, ⟨Int.ofNat_le.mp short, ?_, .inl ⟨quotient, whole⟩⟩, ?_⟩
  · rw [Fits, whole, nearest_whole_nat_cast]
    exact small
  · rw [whole, nearest_whole_nat_cast]

theorem shortened_settles {q : ℚ} {divisor quotient remainder : Nat} {scale : Int}
    (divided : Divided q divisor quotient remainder scale) (large : maxMantissa < quotient)
    (near : quotient ≤ maxMantissa + tenTo 9) (short : scale ≤ maxScale) :
    Settles q (settle quotient (remainder != 0) scale) := by
  by_cases whole : scale ≤ 0
  · rw [settle_large large _ whole]
    exact not_fits large divided.quotient_le whole
  · obtain ⟨places, same⟩ : ∃ places : Nat, scale = (places + 1 : Nat) :=
      ⟨(scale - 1).toNat, by omega⟩
    subst same
    have rounded := nearest_whole_tenth divided
    rw [settle_shorter large]
    refine ⟨places, rfl, ⟨by omega, ?_, .inr ?_⟩, rounded.symm⟩
    · have tenth : quotient / 10 + 1 ≤ maxMantissa := by
        have power : tenTo 9 = 1000000000 := rfl
        have most : maxMantissa = 79228162514264337593543950335 := rfl
        omega
      rw [Fits, rounded]
      split
      · exact tenth
      · exact Nat.le_of_succ_le tenth
    · intro more _ above
      exact not_fits large divided.quotient_le (Int.ofNat_le.mpr above)

-- A quotient that there is no room behind: it is rounded in its last place, and that may make it
-- one too large.
theorem rounded_settles {q : ℚ} {divisor quotient remainder : Nat} {scale : Int}
    (divided : Divided q divisor quotient remainder scale) (uneven : 0 < remainder)
    (small : quotient ≤ maxMantissa) (nonnegative : 0 ≤ scale) (short : scale ≤ maxScale)
    (full : scale = maxScale ∨ maxMantissa < quotient * 10) :
    Settles q (settle
      (if Tie.toEven.roundsUp quotient (2 * remainder) divisor then quotient + 1 else quotient)
      true scale) := by
  obtain ⟨places, same⟩ := Int.eq_ofNat_of_zero_le nonnegative
  subst same
  have rounded : nearestWhole .toEven (q * tenTo places) =
      if Tie.toEven.roundsUp quotient (2 * remainder) divisor then quotient + 1 else quotient := by
    rw [divided.at_places, nearest_whole_div _ _ _ (Nat.zero_lt_of_lt divided.below), roundQuotient,
      balance_div quotient divided.below, balance_mod quotient divided.below]
  have noMore : ∀ more ≤ maxScale, places < more → ¬Fits q more := by
    intro more bound above
    rcases full with last | full
    · omega
    · exact not_fits full divided.tenfold_le (by omega)
  rw [← rounded]
  by_cases fits : Fits q places
  · rw [settle_small fits]
    exact ⟨places, rfl, ⟨Int.ofNat_le.mp short, fits, .inr noMore⟩, rfl⟩
  · -- Only the largest mantissa is rounded to one that is too large.
    have large : maxMantissa < nearestWhole .toEven (q * tenTo places) := Nat.lt_of_not_le fits
    have most : quotient = maxMantissa ∧
        nearestWhole .toEven (q * tenTo places) = maxMantissa + 1 := by
      rw [rounded] at large ⊢
      by_cases up : Tie.toEven.roundsUp quotient (2 * remainder) divisor = true
      · rw [if_pos up] at large ⊢
        omega
      · rw [if_neg up] at large
        omega
    cases places with
    | zero =>
        rw [settle_large large _ (by simp)]
        exact fits
    | succ places =>
        have tenth := nearest_whole_tenth divided
        rw [most.1, bne_iff_ne.mpr uneven.ne'] at tenth
        rw [settle_shorter large, most.2]
        refine ⟨places, rfl, ⟨by omega, ?_, .inr ?_⟩, ?_⟩
        · rw [Fits, tenth]
          decide
        · intro more bound above
          rcases Nat.lt_or_eq_of_le (Nat.succ_le_of_lt above) with further | same
          · exact noMore more bound further
          · exact same ▸ fits
        · rw [tenth]
          decide

theorem next_digits_room (quotient : Nat) (scale : Int) :
    nextDigits quotient scale = 0 ∨
      nextDigits quotient scale ≤ 9 ∧ scale + nextDigits quotient scale ≤ maxScale ∧
        quotient * tenTo (nextDigits quotient scale) ≤ maxMantissa := by
  unfold nextDigits
  cases found : (List.range 10).reverse.find? fun (digits : Nat) =>
      decide (scale + (digits : Int) ≤ maxScale) &&
        decide (quotient * tenTo digits ≤ maxMantissa) with
  | none => exact .inl rfl
  | some digits =>
      have member := List.mem_of_find?_eq_some found
      have room := List.find?_some found
      simp only [Bool.and_eq_true, decide_eq_true_eq] at room
      rw [List.mem_reverse, List.mem_range] at member
      exact .inr ⟨Nat.le_of_lt_succ member, room⟩

theorem next_digits_none (quotient : Nat) (scale : Int) (none : nextDigits quotient scale = 0)
    (short : scale ≤ maxScale) : scale = maxScale ∨ maxMantissa < quotient * 10 := by
  by_contra room
  obtain ⟨notLast, notFull⟩ := not_or.mp room
  have first : (decide (scale + ((1 : Nat) : Int) ≤ maxScale) &&
      decide (quotient * tenTo 1 ≤ maxMantissa)) = true := by
    have power : tenTo 1 = 10 := rfl
    rw [power, Bool.and_eq_true, decide_eq_true_eq, decide_eq_true_eq]
    omega
  have digits : (List.range 10).reverse = [9, 8, 7, 6, 5, 4, 3, 2, 1, 0] := rfl
  unfold nextDigits at none
  rw [digits] at none
  simp only [List.find?_cons, first] at none
  repeat' split at none
  all_goals simp at none

theorem extend_near {quotient remainder divisor digits : Nat} (below : remainder < divisor)
    (nine : digits ≤ 9) (room : quotient * tenTo digits ≤ maxMantissa) :
    quotient * tenTo digits + remainder * tenTo digits / divisor ≤ maxMantissa + tenTo 9 := by
  have next : remainder * tenTo digits / divisor ≤ tenTo digits := by
    refine Nat.div_le_of_le_mul ?_
    exact Nat.mul_le_mul_right _ below.le
  have power : tenTo digits ≤ tenTo 9 := Nat.pow_le_pow_right (by decide) nine
  omega

theorem divide_settles (q : ℚ) (divisor : Nat) (steps quotient remainder : Nat) (scale : Int)
    (uneven : Bool) (divided : Divided q divisor quotient remainder scale)
    (small : quotient ≤ maxMantissa) (short : scale ≤ maxScale) (enough : maxScale - scale < steps) :
    Settles q ((divide divisor steps quotient remainder scale uneven).map fun found =>
      (found.1, found.2.1)) := by
  induction steps generalizing quotient remainder scale uneven with
  | zero => omega
  | succ steps ih =>
      unfold divide
      split
      · rename_i even
        subst even
        split
        · rename_i nonnegative
          exact exact_settles divided small nonnegative short
        · rename_i negative
          have longer := divided.extend (min 9 (-scale).toNat)
          rw [Nat.zero_mul, Nat.zero_div, Nat.zero_mod, Nat.add_zero] at longer
          dsimp only
          split
          · rename_i room
            exact ih _ _ _ _ longer room (by omega) (by omega)
          · rename_i full
            exact not_fits (Nat.lt_of_not_le full) longer.quotient_le (by omega)
      · rename_i left
        dsimp only
        by_cases noRoom : nextDigits quotient scale = 0
        · have full := next_digits_none quotient scale noRoom short
          rw [if_pos noRoom]
          split
          · rename_i negative
            rcases full with last | full
            · omega
            · exact not_fits full divided.tenfold_le (by omega)
          · rename_i nonnegative
            rw [Option.map_map]
            simpa [Function.comp_def] using rounded_settles divided (Nat.pos_of_ne_zero left) small
              (not_lt.mp nonnegative) short full
        · obtain ⟨nine, further, room⟩ := (next_digits_room quotient scale).resolve_left noRoom
          have longer := divided.extend (nextDigits quotient scale)
          rw [if_neg noRoom]
          split
          · rename_i fits
            exact ih _ _ _ _ longer fits further (by omega)
          · rename_i full
            have near := extend_near divided.below nine room
            rw [Option.map_map]
            simpa [Function.comp_def] using
              shortened_settles longer (Nat.lt_of_not_le full) near further

def Trims (long short : Nat × Nat) : Prop :=
  ∃ zeros, long = (short.1 * tenTo zeros, short.2 + zeros)

theorem trims_refl (parts : Nat × Nat) : Trims parts parts :=
  ⟨0, by rw [ten_to_zero, Nat.mul_one, Nat.add_zero]⟩

theorem trims_trans {long middle short : Nat × Nat} (first : Trims long middle)
    (second : Trims middle short) : Trims long short := by
  obtain ⟨zeros, same⟩ := first
  obtain ⟨more, alsoSame⟩ := second
  refine ⟨more + zeros, ?_⟩
  rw [same, alsoSame, ten_to_add, Nat.mul_assoc, Nat.add_assoc]

theorem drop_zeros_trims (count mantissa scale : Nat) :
    Trims (mantissa, scale) (dropZeros count mantissa scale) := by
  unfold dropZeros
  split
  · rename_i droppable
    refine ⟨count, Prod.ext ?_ ?_⟩
    · exact (Nat.div_mul_cancel (Nat.dvd_of_mod_eq_zero droppable.2)).symm
    · exact (Nat.sub_add_cancel droppable.1).symm
  · exact trims_refl _

theorem drop_eights_trims (fuel mantissa scale : Nat) :
    Trims (mantissa, scale) (dropEights fuel mantissa scale) := by
  induction fuel generalizing mantissa scale with
  | zero => exact trims_refl _
  | succ fuel ih =>
      unfold dropEights
      split
      · rename_i droppable
        refine trims_trans ⟨8, Prod.ext ?_ ?_⟩ (ih _ _)
        · exact (Nat.div_mul_cancel (Nat.dvd_of_mod_eq_zero droppable.2.2)).symm
        · exact (Nat.sub_add_cancel droppable.2.1).symm
      · exact trims_refl _

theorem drop_trailing_trims (mantissa scale : Nat) :
    Trims (mantissa, scale) (dropTrailing mantissa scale) :=
  trims_trans (drop_eights_trims scale mantissa scale)
    (trims_trans (drop_zeros_trims 4 _ _)
      (trims_trans (drop_zeros_trims 2 _ _) (drop_zeros_trims 1 _ _)))

theorem sign_zero_mul (negative : Bool) (mantissa : Nat) (q : ℚ) :
    sign (mantissa != 0 && negative) * (mantissa / q) = sign negative * (mantissa / q) := by
  by_cases zero : mantissa = 0
  · simp [zero]
  · rw [bne_iff_ne.mpr zero, Bool.true_and]

theorem value_trimmed (negative : Bool) {mantissa scale : Nat} {trimmed : Nat × Nat}
    (trims : Trims (mantissa, scale) trimmed) (small : mantissa ≤ maxMantissa)
    (short : scale ≤ maxScale) :
    (ofParts? (trimmed.1 != 0 && negative) trimmed.1 trimmed.2).map value =
      some (sign negative * (mantissa / tenTo scale)) := by
  obtain ⟨zeros, same⟩ := trims
  obtain ⟨longer, further⟩ := Prod.mk.inj same
  have smaller : trimmed.1 ≤ maxMantissa :=
    (Nat.le_mul_of_pos_right _ (ten_to_pos zeros)).trans (longer ▸ small)
  have shorter : trimmed.2 ≤ maxScale := (Nat.le_add_right _ zeros).trans (further ▸ short)
  have sameValue : (mantissa / tenTo scale : ℚ) = trimmed.1 / tenTo trimmed.2 := by
    rw [longer, further, ten_to_add_rat, Nat.cast_mul,
      mul_div_mul_right _ _ (ten_to_ne_zero_rat zeros)]
  rw [ofParts?, dif_pos ⟨smaller, shorter⟩, Option.map_some, value_parts, sign_zero_mul, sameValue]

theorem value_quotient (a b : Decimal) :
    a.value / b.value = sign (a.negative != b.negative) *
      ((a.mantissa / tenTo a.scale) / (b.mantissa / tenTo b.scale)) := by
  rw [value_parts a, value_parts b, mul_div_mul_comm, sign_bne]
  congr 1
  cases a.negative <;> cases b.negative <;> norm_num [sign]

theorem divided_start (a b : Decimal) (positive : 0 < b.mantissa) :
    Divided ((a.mantissa / tenTo a.scale) / (b.mantissa / tenTo b.scale)) b.mantissa
      (a.mantissa / b.mantissa) (a.mantissa % b.mantissa) ((a.scale : Int) - b.scale) := by
  refine ⟨?_, Nat.mod_lt _ positive⟩
  have first := ten_to_ne_zero_rat a.scale
  have second := ten_to_ne_zero_rat b.scale
  have third : (b.mantissa : ℚ) ≠ 0 := by exact_mod_cast positive.ne'
  have whole : ((a.mantissa / b.mantissa : Nat) : ℚ) * b.mantissa + (a.mantissa % b.mantissa : Nat) =
      a.mantissa := by exact_mod_cast Nat.div_add_mod' a.mantissa b.mantissa
  rw [whole, zpow_sub₀ (by norm_num), ← ten_to_zpow, ← ten_to_zpow]
  field_simp

theorem value_settled (negative : Bool) {q : ℚ} (nonnegative : 0 ≤ q) {mantissa : Nat} {scale : Int}
    (settled : Settles q (some (mantissa, scale))) {trimmed : Nat × Nat}
    (trims : Trims (mantissa, scale.toNat) trimmed) :
    (ofParts? (trimmed.1 != 0 && negative) trimmed.1 trimmed.2).map value =
      fitted (sign negative * q) := by
  obtain ⟨places, sameScale, best, rounded⟩ := settled
  subst sameScale
  rw [fitted_best _ q nonnegative places best, ← rounded]
  exact value_trimmed negative trims (rounded ▸ best.fits) best.short

theorem value_div? (a b : Decimal) (nonzero : b.value ≠ 0) :
    (a.div? b).map value = fitted (a.value / b.value) := by
  have divisor : b.isZero = false :=
    Bool.eq_false_iff.mpr fun zero => nonzero ((is_zero_iff b).mp zero)
  have positive : 0 < b.mantissa :=
    Nat.pos_of_ne_zero (bne_iff_ne.mp (Bool.not_eq_eq_eq_not.mpr divisor))
  have start := divided_start a b positive
  rw [value_quotient]
  have nonnegative : (0 : ℚ) ≤ (a.mantissa / tenTo a.scale) / (b.mantissa / tenTo b.scale) := by
    positivity
  have scales := a.scale_le
  have otherScales := b.scale_le
  have most : maxScale = 28 := rfl
  have settled := divide_settles _ b.mantissa 64 _ _ _ false start
    ((Nat.div_le_self _ _).trans a.mantissa_le) (by omega) (by omega)
  unfold div?
  rw [if_neg (Bool.eq_false_iff.mp divisor)]
  by_cases zero : a.isZero = true
  · have vanishes : a.mantissa = 0 := beq_iff_eq.mp zero
    rw [if_pos zero, vanishes, Nat.cast_zero, zero_div, zero_div, mul_zero, Option.map_some,
      ← value_zero, fitted_value]
  · rw [if_neg zero]
    cases found : divide b.mantissa 64 (a.mantissa / b.mantissa) (a.mantissa % b.mantissa)
        ((a.scale : Int) - b.scale) false with
    | none =>
        rw [found] at settled
        exact (fitted_none _ _ nonnegative settled).symm
    | some parts =>
        rw [found] at settled
        obtain ⟨mantissa, scale, uneven⟩ := parts
        have trims : Trims (mantissa, scale.toNat)
            (if uneven then dropTrailing mantissa scale.toNat else (mantissa, scale.toNat)) := by
          split
          · exact drop_trailing_trims mantissa scale.toNat
          · exact trims_refl _
        exact value_settled _ nonnegative settled trims

end Tariff.Decimal
