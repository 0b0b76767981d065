import Mathlib.Data.Nat.Find
import Tariff.Decimal.Arithmetic
import Tariff.Proofs.Decimal.Value

/-! Each sum, difference and product is the exact result, rounded once to as many digits as fit, so its
value depends on the values of the operands alone, not on their scales. -/

set_option autoImplicit false

namespace Tariff.Decimal

def Fits (q : ℚ) (places : Nat) : Prop :=
  nearestWhole .toEven (q * tenTo places) ≤ maxMantissa

instance (q : ℚ) (places : Nat) : Decidable (Fits q places) :=
  inferInstanceAs (Decidable (_ ≤ _))

-- The value nearest to a number with as many digits behind the point as fit.
def fitted (q : ℚ) : Option ℚ :=
  let places := Nat.findGreatest (Fits q) maxScale
  if Fits q places then some (rounded .toEven places q) else none

theorem fits_sign (negative : Bool) (q : ℚ) (places : Nat) :
    Fits (sign negative * q) places ↔ Fits q places := by
  cases negative with
  | false => simp [Fits, sign]
  | true => simp [Fits, sign, nearest_whole_neg]

theorem fits_fewer {q : ℚ} (nonnegative : 0 ≤ q) {fewer places : Nat} (le : fewer ≤ places)
    (fits : Fits q places) : Fits q fewer := by
  obtain ⟨more, sum⟩ := Nat.exists_eq_add_of_le le
  have power : (tenTo fewer : ℚ) ≤ tenTo places := by
    rw [sum, ten_to_add]
    exact_mod_cast Nat.le_mul_of_pos_right _ (ten_to_pos more)
  have positive := ten_to_pos_rat fewer
  exact (nearest_whole_mono .toEven (by positivity)
    (mul_le_mul_of_nonneg_left power nonnegative)).trans fits

-- With so many digits a number fits, and either nothing of it is lost or no more digits fit.
structure Best (q : ℚ) (places : Nat) : Prop where
  short : places ≤ maxScale
  fits : Fits q places
  most : (∃ n : Nat, q * tenTo places = n) ∨ ∀ more ≤ maxScale, places < more → ¬Fits q more

theorem fitted_best (negative : Bool) (q : ℚ) (nonnegative : 0 ≤ q) (places : Nat)
    (best : Best q places) :
    fitted (sign negative * q) =
      some (sign negative * (nearestWhole .toEven (q * tenTo places) / tenTo places)) := by
  have here : Fits (sign negative * q) places := (fits_sign negative q places).mpr best.fits
  have most := Nat.findGreatest_spec best.short here
  have atLeast := Nat.le_findGreatest best.short here
  have bound := Nat.findGreatest_le (P := Fits (sign negative * q)) maxScale
  unfold fitted
  generalize Nat.findGreatest (Fits (sign negative * q)) maxScale = greatest at *
  dsimp only
  rw [if_pos most]
  rcases best.most with ⟨n, whole⟩ | noMore
  · obtain ⟨more, sum⟩ := Nat.exists_eq_add_of_le atLeast
    have wholeMost : q * tenTo greatest = (n * tenTo more : Nat) := by
      rw [sum, ten_to_add_rat, ← mul_assoc, whole, Nat.cast_mul]
    rw [rounded_whole .toEven greatest negative q _ wholeMost, whole, nearest_whole_nat_cast, ← whole,
      mul_div_cancel_right₀ _ (ten_to_ne_zero_rat places)]
  · have same : greatest = places := by
      by_contra different
      exact noMore greatest bound (Nat.lt_of_le_of_ne atLeast (Ne.symm different))
        ((fits_sign negative q greatest).mp most)
    rw [same, rounded_signed .toEven places negative q nonnegative]

theorem fitted_none (negative : Bool) (q : ℚ) (nonnegative : 0 ≤ q) (large : ¬Fits q 0) :
    fitted (sign negative * q) = none := by
  have never (places : Nat) : ¬Fits (sign negative * q) places := by
    rw [fits_sign]
    exact fun fits => large (fits_fewer nonnegative (Nat.zero_le places) fits)
  exact if_neg (never _)

theorem fitted_exact (q : ℚ) (places : Nat) (n : ℤ) (whole : q * tenTo places = n)
    (short : places ≤ maxScale) (small : n.natAbs ≤ maxMantissa) : fitted q = some q := by
  have nonzero := ten_to_ne_zero_rat places
  have same : q = sign (decide (n < 0)) * (n.natAbs / tenTo places) := by
    rw [← mul_div_assoc, sign_nat_abs, eq_div_iff nonzero, whole]
  have magnitude : (n.natAbs / tenTo places : ℚ) * tenTo places = n.natAbs :=
    div_mul_cancel₀ _ nonzero
  have fits : Fits (n.natAbs / tenTo places) places := by
    rw [Fits, magnitude, nearest_whole_nat_cast]
    exact small
  rw [same, fitted_best _ _ (by positivity) places ⟨short, fits, .inl ⟨n.natAbs, magnitude⟩⟩,
    magnitude, nearest_whole_nat_cast]

theorem nat_abs_signed (d : Decimal) : d.signed.natAbs = d.mantissa := by
  unfold signed
  split
  · rw [Int.natAbs_neg, Int.natAbs_natCast]
  · exact Int.natAbs_natCast d.mantissa

theorem fitted_value (d : Decimal) : fitted d.value = some d.value :=
  fitted_exact d.value d.scale d.signed (div_mul_cancel₀ _ (ten_to_ne_zero_rat d.scale)) d.scale_le
    (nat_abs_signed d ▸ d.mantissa_le)

theorem find_some_range {α : Type} (found : Nat → Option α) (count : Nat) :
    (∃ index < count, (List.range count).findSome? found = found index ∧
        (found index).isSome = true ∧ ∀ before < index, found before = none) ∨
      ((List.range count).findSome? found = none ∧ ∀ index < count, found index = none) := by
  induction count with
  | zero => exact .inr ⟨rfl, fun index less => absurd less (Nat.not_lt_zero index)⟩
  | succ count ih =>
      rw [List.range_succ, List.findSome?_append]
      rcases ih with ⟨index, less, first, present, earlier⟩ | ⟨nothing, all⟩
      · refine .inl ⟨index, Nat.lt_succ_of_lt less, ?_, present, earlier⟩
        rw [first, Option.or_of_isSome present]
      · rw [nothing, Option.none_or]
        cases last : found count with
        | none =>
            refine .inr ⟨by simp [last], fun index less => ?_⟩
            rcases Nat.lt_succ_iff_lt_or_eq.mp less with before | same
            · exact all index before
            · exact same ▸ last
        | some value => exact .inl ⟨count, Nat.lt_succ_self count, by simp [last], by simp [last], all⟩

theorem of_parts?_ne_none (negative : Bool) {mantissa scale : Nat} (small : mantissa ≤ maxMantissa)
    (short : scale ≤ maxScale) : ofParts? negative mantissa scale ≠ none := by
  rw [ofParts?, dif_pos ⟨small, short⟩]
  exact Option.some_ne_none _

theorem value_fit? (negative : Bool) (mantissa scale : Nat) :
    (fit? negative mantissa scale).map value =
      fitted (sign negative * (mantissa / tenTo scale)) := by
  have nonnegative : (0 : ℚ) ≤ mantissa / tenTo scale := by positivity
  -- So many digits dropped leave the mantissa that `fit?` looks at.
  have kept (dropped : Nat) (le : dropped ≤ scale) :
      nearestWhole .toEven (mantissa / tenTo scale * tenTo (scale - dropped)) =
        roundQuotient .toEven mantissa (tenTo dropped) := by
    have power : tenTo scale = tenTo dropped * tenTo (scale - dropped) := by
      rw [← ten_to_add, Nat.add_sub_cancel' le]
    have first := ten_to_ne_zero_rat dropped
    have second := ten_to_ne_zero_rat (scale - dropped)
    rw [← nearest_whole_div .toEven _ _ (ten_to_pos dropped), power, Nat.cast_mul]
    congr 1
    field_simp
  unfold fit?
  rcases find_some_range (fun dropped =>
    ofParts? negative (roundQuotient .toEven mantissa (tenTo dropped)) (scale - dropped))
    (scale + 1) with ⟨dropped, less, first, present, earlier⟩ | ⟨nothing, all⟩
  · have le : dropped ≤ scale := Nat.le_of_lt_succ less
    obtain ⟨d, made⟩ := Option.isSome_iff_exists.mp present
    obtain ⟨sameSign, sameMantissa, sameScale⟩ := of_parts?_eq_some made
    have fits : Fits (mantissa / tenTo scale) (scale - dropped) := by
      rw [Fits, kept dropped le, ← sameMantissa]
      exact d.mantissa_le
    have best : Best (mantissa / tenTo scale) (scale - dropped) := by
      refine ⟨sameScale ▸ d.scale_le, fits, ?_⟩
      cases dropped with
      | zero => exact .inl ⟨mantissa, div_mul_cancel₀ _ (ten_to_ne_zero_rat scale)⟩
      | succ dropped =>
          right
          intro more bound above fitsMore
          have fewer : Fits (mantissa / tenTo scale) (scale - (scale - min more scale)) := by
            refine fits_fewer nonnegative ?_ fitsMore
            omega
          rw [Fits, kept _ (Nat.sub_le _ _)] at fewer
          refine of_parts?_ne_none negative fewer ?_ (earlier (scale - min more scale) ?_)
          · omega
          · omega
    rw [first, made, Option.map_some, fitted_best negative _ nonnegative _ best, kept dropped le,
      value_parts, sameSign, sameMantissa, sameScale]
  · have large : ¬Fits (mantissa / tenTo scale) 0 := by
      intro fits
      rw [← Nat.sub_self scale, Fits, kept scale (Nat.le_refl scale)] at fits
      refine of_parts?_ne_none negative fits ?_ (all scale (Nat.lt_succ_self scale))
      omega
    rw [nothing, fitted_none negative _ nonnegative large, Option.map_none]

theorem value_at (d : Decimal) (scale : Nat) (le : d.scale ≤ scale) :
    d.value = (d.signed * tenTo (scale - d.scale) : ℤ) / tenTo scale := by
  have power : tenTo scale = tenTo d.scale * tenTo (scale - d.scale) := by
    rw [← ten_to_add, Nat.add_sub_cancel' le]
  have first := ten_to_ne_zero_rat d.scale
  have second := ten_to_ne_zero_rat (scale - d.scale)
  rw [value, power]
  push_cast
  field_simp

theorem value_add? (a b : Decimal) : (a.add? b).map value = fitted (a.value + b.value) := by
  unfold add?
  split
  · rename_i zero
    rw [(is_zero_iff a).mp zero, zero_add, fitted_value, Option.map_some]
  · split
    · rename_i zero
      rw [(is_zero_iff b).mp zero, add_zero, fitted_value, Option.map_some]
    · dsimp only
      rw [value_fit?, ← mul_div_assoc, sign_nat_abs, Int.cast_add, add_div,
        ← value_at a _ (Nat.le_max_left _ _), ← value_at b _ (Nat.le_max_right _ _)]

theorem value_sub? (a b : Decimal) : (a.sub? b).map value = fitted (a.value - b.value) := by
  rw [sub_eq_add_neg, ← value_neg]
  unfold sub?
  split
  · rename_i zero
    rw [(is_zero_iff a).mp zero, zero_add, fitted_value, Option.map_some]
    split
    · rename_i alsoZero
      rw [value_neg, (is_zero_iff b).mp alsoZero, neg_zero]
    · rfl
  · exact value_add? a b.neg

theorem sign_bne (a b : Bool) : sign (a != b) = sign a * sign b := by
  cases a <;> cases b <;> norm_num [sign]

-- A product of two short mantissas vanishes behind so many digits.
theorem fitted_vanishing (negative : Bool) (mantissa scale : Nat) (short : mantissa < 2 ^ 64)
    (long : 47 < scale) : fitted (sign negative * (mantissa / tenTo scale)) = some 0 := by
  obtain ⟨more, sum⟩ := Nat.exists_eq_add_of_le (show maxScale + 20 ≤ scale from long)
  have nonzero := ten_to_ne_zero_rat maxScale
  have nonzeroMore := ten_to_ne_zero_rat (20 + more)
  have moved : (mantissa / tenTo scale : ℚ) * tenTo maxScale = mantissa / tenTo (20 + more) := by
    rw [sum, Nat.add_assoc, ten_to_add_rat maxScale]
    field_simp
  have unit : 10 ^ 20 ≤ tenTo (20 + more) := by
    rw [ten_to_add]
    exact Nat.le_mul_of_pos_right _ (ten_to_pos more)
  have vanishes : nearestWhole .toEven (mantissa / tenTo scale * tenTo maxScale) = 0 := by
    rw [moved, nearest_whole_div _ _ _ (ten_to_pos _)]
    have below : mantissa < tenTo (20 + more) := by omega
    unfold roundQuotient
    rw [Nat.div_eq_of_lt below, Nat.mod_eq_of_lt below, if_neg]
    rw [rounds_up_iff]
    omega
  have best : Best (mantissa / tenTo scale) maxScale := by
    refine ⟨Nat.le_refl _, ?_, .inr fun more bound above => absurd bound (Nat.not_le_of_lt above)⟩
    rw [Fits, vanishes]
    exact Nat.zero_le _
  rw [fitted_best negative _ (by positivity) maxScale best, vanishes]
  simp

theorem value_mul? (a b : Decimal) : (a.mul? b).map value = fitted (a.value * b.value) := by
  have exact : a.value * b.value = sign (a.negative != b.negative) *
      ((a.mantissa * b.mantissa : Nat) / tenTo (a.scale + b.scale)) := by
    rw [value_parts a, value_parts b, sign_bne, ten_to_add_rat]
    push_cast
    ring
  unfold mul?
  split
  · rename_i zero
    have vanishes : a.value * b.value = 0 := by
      rw [mul_eq_zero, ← is_zero_iff, ← is_zero_iff]
      exact Bool.or_eq_true_iff.mp zero
    rw [vanishes, ← value_zero, fitted_value, Option.map_some]
  · dsimp only
    split
    · rename_i small
      obtain ⟨first, second⟩ := Bool.and_eq_true_iff.mp small
      split
      · rename_i long
        have short : a.mantissa * b.mantissa < 2 ^ 64 := by
          have one : a.mantissa < 2 ^ 32 := of_decide_eq_true first
          have two : b.mantissa < 2 ^ 32 := of_decide_eq_true second
          exact (Nat.mul_lt_mul'' one two).trans_eq (by norm_num)
        rw [exact, fitted_vanishing _ _ _ short long, Option.map_some, value_zero]
      · rw [exact, ← value_fit?, Option.map_map]
        congr 1
        funext d
        rw [Function.comp_apply]
        split
        · rename_i zero
          have alsoZero : d.abs.isZero = true := zero
          rw [(is_zero_iff _).mp zero, (is_zero_iff _).mp alsoZero]
        · rfl
    · rw [exact, value_fit?]

end Tariff.Decimal
