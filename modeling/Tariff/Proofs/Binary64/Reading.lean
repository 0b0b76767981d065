import Tariff.Proofs.Binary64.Shortest
import Tariff.Proofs.Binary64.Text
import Tariff.Proofs.Decimal.Scientific

set_option autoImplicit false

namespace Tariff.Binary64

open Decimal

variable (x : Binary64)

theorem shortest_digits_few : x.shortestDigits.length ≤ 18 := by
  rw [shortestDigits, Nat.length_toDigits_le_iff (by decide) (by decide)]
  exact lt_of_le_of_lt (x.shortest_spec .toEven).1 (by decide)

theorem shortest_parts : ∃ d : Decimal,
    d.Parts (x.shortestDigits.take 1) (x.shortestDigits.drop 1) ∧
      d.scale = x.shortestDigits.length - 1 ∧ d.mantissa = (x.shortest .toEven).1 := by
  obtain ⟨front, behind⟩ := split_all 1 (to_digits_all (x.shortest .toEven).1)
  have few := x.shortest_digits_few
  have numeral : Numeral (x.shortestDigits.take 1) (x.shortestDigits.drop 1) := by
    refine ⟨List.ne_nil_of_length_pos ?_, front, behind⟩
    have some : 0 < x.shortestDigits.length := Nat.length_toDigits_pos
    rw [List.length_take]
    omega
  have short : (x.shortestDigits.take 1).length + (x.shortestDigits.drop 1).length ≤ maxScale := by
    rw [← List.length_append, List.take_append_drop]
    exact few.trans (by decide)
  obtain ⟨d, parts, scale, mantissa⟩ := numeral.parts short
  refine ⟨d, parts, by rw [scale, List.length_drop], ?_⟩
  rw [mantissa, List.take_append_drop, shortestDigits, to_digits_value]

theorem exponent_text_read {base : List Char} {d : Decimal} {place : ℤ}
    (noMark : ∀ c ∈ base, (c == 'e' || c == 'E') = false) (read : plain? base = .ok d)
    (lowest : -28 ≤ place) (highest : place ≤ 28)
    (shifts : 0 ≤ place → ∃ shifted, d.shiftUp? place.toNat = some shifted) :
    ∃ shifted, ofText? (base ++ exponentText place) = some shifted := by
  have small : place.natAbs ≤ maxScale := show place.natAbs ≤ 28 by omega
  have digits := exponent?_to_digits (small.trans (by decide))
  have marked : ∃ shifted, scientific? (base ++ exponentText place) = some shifted := by
    rw [exponentText, scientific?_marked _ noMark read]
    by_cases negative : place < 0
    · rw [if_pos negative]
      change ∃ shifted, (exponent? (Nat.toDigits 10 place.natAbs)).bind d.shiftDown? = some shifted
      rw [← exponent?_plus (to_digits_all _), digits, Option.bind_some]
      exact d.shift_down?_short small
    · rw [if_neg negative]
      change ∃ shifted, (exponent? ('+' :: Nat.toDigits 10 place.natAbs)).bind d.shiftUp? = some shifted
      rw [digits, Option.bind_some, show place.natAbs = place.toNat by omega]
      exact shifts (not_lt.mp negative)
  unfold ofText?
  split
  · exact ⟨_, rfl⟩
  · exact marked

theorem point_place_bounds (some : 0 < (x.shortest .toEven).1) :
    (10 : ℚ) ^ (x.pointPlace - 1) ≤ (x.shortest .toEven).1 * 10 ^ (x.shortest .toEven).2 ∧
      ((x.shortest .toEven).1 * 10 ^ (x.shortest .toEven).2 : ℚ) < 10 ^ x.pointPlace := by
  obtain ⟨least, most⟩ := to_digits_bounds some
  have digits : 0 < x.shortestDigits.length := Nat.length_toDigits_pos
  have positive : (0 : ℚ) < 10 ^ (x.shortest .toEven).2 := by positivity
  have power (zeros : Nat) : ((tenTo zeros : Nat) : ℚ) = 10 ^ (zeros : ℤ) := by simp [tenTo]
  have place : x.pointPlace - 1 = (x.shortestDigits.length - 1 : Nat) + (x.shortest .toEven).2 := by
    unfold pointPlace
    omega
  constructor
  · rw [place, zpow_add₀ (by norm_num), ← power]
    exact mul_le_mul_of_nonneg_right (by exact_mod_cast least) positive.le
  · rw [pointPlace, zpow_add₀ (by norm_num), ← power]
    exact mul_lt_mul_of_pos_right (by exact_mod_cast most) positive

theorem digits_fit (small : ((x.shortest .toEven).1 * 10 ^ (x.shortest .toEven).2 : ℚ) ≤ maxMantissa) :
    (x.shortest .toEven).1 *
      tenTo ((x.pointPlace - 1).toNat - (x.shortestDigits.length - 1)) ≤ maxMantissa := by
  have digits : 0 < x.shortestDigits.length := Nat.length_toDigits_pos
  have most := (x.shortest_spec .toEven).1
  unfold pointPlace
  generalize (x.shortest .toEven).2 = power at small ⊢
  rcases le_total 0 power with positive | negative
  · obtain ⟨zeros, same⟩ := Int.eq_ofNat_of_zero_le positive
    subst same
    have zerosOnly : ((x.shortestDigits.length + zeros : ℤ) - 1).toNat -
        (x.shortestDigits.length - 1) = zeros := by omega
    rw [zpow_natCast] at small
    rw [zerosOnly, tenTo]
    exact_mod_cast small
  · have noZeros : ((x.shortestDigits.length + power : ℤ) - 1).toNat -
        (x.shortestDigits.length - 1) = 0 := by omega
    rw [noZeros, ten_to_zero, Nat.mul_one]
    exact most.trans (by decide)

theorem sign_text_no_mark {text : List Char} (noMark : ∀ c ∈ text, (c == 'e' || c == 'E') = false) :
    ∀ c ∈ x.signText ++ text, (c == 'e' || c == 'E') = false := by
  intro c member
  rcases List.mem_append.mp member with sign | other
  · unfold signText at sign
    split at sign
    · rw [List.mem_singleton.mp sign]
      rfl
    · cases sign
  · exact noMark c other

theorem json_text_read (small : x.upper ≤ maxMantissa)
    (large : x.isZero = false → 1 / tenTo maxScale ≤ x.lower) :
    ∃ d, ofText? x.jsonText = some d := by
  have few := x.shortest_digits_few
  rcases x.json_text_cases with ⟨text, isNumeral, written⟩ | ⟨nonzero, far, written⟩
  · rw [written]
    exact of_text?_numeral isNumeral (show max 17 (x.shortestDigits.length + 5) ≤ 28 by omega)
      x.negative
  · obtain ⟨d, parts, scale, mantissa⟩ := x.shortest_parts
    have noMark := x.sign_text_no_mark (parts_text_no_mark parts.toNumeral)
    obtain ⟨most, none | ⟨above, below⟩⟩ := x.shortest_spec .toEven
    · have place : x.pointPlace = 1 := by
        rw [pointPlace, shortestDigits, none]
        rfl
      omega
    · have within : 1 / tenTo maxScale ≤
          ((x.shortest .toEven).1 * 10 ^ (x.shortest .toEven).2 : ℚ) := (large nonzero).trans above
      have some : 0 < (x.shortest .toEven).1 := by
        by_contra zero
        rw [Nat.eq_zero_of_not_pos zero, Nat.cast_zero, zero_mul] at within
        exact absurd within (not_le.mpr (one_div_pos.mpr (ten_to_pos_rat maxScale)))
      obtain ⟨least, less⟩ := x.point_place_bounds some
      have lowest : (10 : ℚ) ^ (-28 : ℤ) < 10 ^ x.pointPlace := by
        have smallest : (10 : ℚ) ^ (-28 : ℤ) = 1 / tenTo maxScale := by norm_num [tenTo]
        rw [smallest]
        exact within.trans_lt less
      have highest : (10 : ℚ) ^ (x.pointPlace - 1) < 10 ^ (29 : ℤ) := by
        have largest : (maxMantissa : ℚ) < 10 ^ (29 : ℤ) := by norm_num
        exact (least.trans (below.trans small)).trans_lt largest
      rw [zpow_lt_zpow_iff_right₀ (by norm_num)] at lowest highest
      rw [written, ← List.append_assoc]
      refine exponent_text_read noMark (plain?_signed parts x.negative) (by omega) (by omega) ?_
      intro _
      refine shift_up?_fits _ (show d.scale ≤ 19 by omega) (show _ ≤ 28 by omega) ?_
      change d.mantissa * tenTo ((x.pointPlace - 1).toNat - d.scale) ≤ maxMantissa
      rw [mantissa, scale]
      exact x.digits_fit (below.trans small)

end Tariff.Binary64
