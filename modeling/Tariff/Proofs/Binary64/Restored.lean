import Tariff.Proofs.Binary64.Reading
import Tariff.Proofs.Binary64.Recovered

set_option autoImplicit false

namespace Tariff

namespace Decimal

theorem Reading.digits_marked (r : Reading) {text : List Char} (marked : 'e' ∈ text) :
    ∃ error, r.digits text = .error error := by
  induction text generalizing r with
  | nil => cases marked
  | cons c rest ih =>
      rcases List.mem_cons.mp marked with first | later
      · subst first
        exact ⟨.malformed, by simp [Reading.digits, isDigit]⟩
      · have rounds (s : Reading) (digit : Nat) : s.round digit rest = .error .malformed := by
          have notAll : ¬rest.all (fun c => isDigit c || c == '_') = true := by
            intro all
            exact absurd (List.all_eq_true.mp all _ later) (by decide)
          rw [Reading.round, if_neg notAll]
        rw [Reading.digits]
        simp only [rounds]
        split
        · split
          · exact ⟨_, rfl⟩
          · split
            · exact ih _ later
            · split
              · exact ⟨_, rfl⟩
              · exact ⟨_, rfl⟩
        · split
          · exact ih _ later
          · split
            · split
              · exact ⟨_, rfl⟩
              · exact ih _ later
            · exact ⟨_, rfl⟩

theorem plain?_marked {text : List Char} (marked : 'e' ∈ text) : ∃ error, plain? text = .error error := by
  unfold plain?
  split
  · exact Reading.digits_marked _ (List.mem_of_ne_of_mem (by decide) marked)
  · exact Reading.digits_marked _ (List.mem_of_ne_of_mem (by decide) marked)
  · exact Reading.digits_marked _ marked

theorem value_signed_as (d : Decimal) (negative : Bool) :
    (d.signedAs negative).value = sign negative * (d.mantissa / tenTo d.scale) := by
  rw [value_parts]
  change sign (negative && d.mantissa != 0) * (d.mantissa / tenTo d.scale) = _
  by_cases zero : d.mantissa = 0
  · simp [zero]
  · rw [bne_iff_ne.mpr zero, Bool.and_true]

theorem shift_down?_exact (d : Decimal) {exponent : Nat} (room : d.scale + exponent ≤ maxScale) :
    ∃ shifted, d.shiftDown? exponent = some shifted ∧ shifted.value = d.value / tenTo exponent := by
  have whole : d.shorten .awayFromZero (maxScale - exponent) = d := dif_pos (by omega)
  rw [shiftDown?, if_neg (by omega)]
  dsimp only
  rw [whole, ofParts?, dif_pos ⟨d.mantissa_le, room⟩]
  refine ⟨_, rfl, ?_⟩
  rw [value_parts, value_parts, ten_to_add_rat, mul_div_assoc, div_div]

end Decimal

namespace Binary64

open Decimal

variable (x : Binary64)

theorem mantissa_div_ten_to (digits : Nat) {power : ℤ} (negative : power ≤ 0) :
    (digits / tenTo (-power).toNat : ℚ) = digits * 10 ^ power := by
  rw [← mul_one_div, ten_to_zpow, Int.toNat_of_nonneg (by omega), neg_neg]

variable {x} (fraction : (x.shortest .toEven).2 < 0) (room : -28 ≤ (x.shortest .toEven).2)

include fraction room

theorem placed_value (near : -5 < x.pointPlace) :
    ∃ d, ofText? (x.signText ++ placePoint x.shortestDigits x.pointPlace) = some d ∧
      d.value = sign x.negative * ((x.shortest .toEven).1 * 10 ^ (x.shortest .toEven).2) := by
  have few := x.shortest_digits_few
  have inside : x.pointPlace < x.shortestDigits.length := by
    unfold pointPlace
    omega
  obtain ⟨whole, behind, numeral, same, value, places, length⟩ :=
    place_point_parts Nat.toDigits_ne_nil (to_digits_all (x.shortest .toEven).1) inside
  change _ ≤ (-x.pointPlace).toNat + x.shortestDigits.length + 1 at length
  have short : whole.length + behind.length ≤ 28 := by omega
  obtain ⟨d, parts, scale, mantissa⟩ := numeral.parts short
  have behindPoint : behind.length = (-(x.shortest .toEven).2).toNat := by
    change _ = (x.shortestDigits.length - x.pointPlace).toNat at places
    rw [places, pointPlace]
    congr 1
    omega
  refine ⟨d.signedAs x.negative, ?_, ?_⟩
  · change ofText? (x.signText ++ placePoint (Nat.toDigits 10 _) _) = _
    rw [same, ofText?, signText, plain?_signed parts x.negative]
  · rw [value_signed_as, mantissa, value, to_digits_value, scale, behindPoint,
      mantissa_div_ten_to _ fraction.le]

theorem marked_value (far : x.pointPlace ≤ -5) :
    ∃ d, ofText? (x.signText ++ (partsText (x.shortestDigits.take 1) (x.shortestDigits.drop 1) ++
        exponentText (x.pointPlace - 1))) = some d ∧
      d.value = sign x.negative * ((x.shortest .toEven).1 * 10 ^ (x.shortest .toEven).2) := by
  obtain ⟨d, parts, scale, mantissa⟩ := x.shortest_parts
  have some : 0 < x.shortestDigits.length := Nat.length_toDigits_pos
  have places : d.scale + (x.pointPlace - 1).natAbs = (-(x.shortest .toEven).2).toNat := by
    rw [scale, pointPlace] at *
    omega
  have short : (x.pointPlace - 1).natAbs ≤ 28 := by omega
  obtain ⟨shifted, made, value⟩ := (d.signedAs x.negative).shift_down?_exact
    (show d.scale + (x.pointPlace - 1).natAbs ≤ 28 by omega)
  refine ⟨shifted, ?_, ?_⟩
  · obtain ⟨error, failed⟩ := plain?_marked
      (show 'e' ∈ x.signText ++ (partsText (x.shortestDigits.take 1) (x.shortestDigits.drop 1) ++
        exponentText (x.pointPlace - 1)) by simp [exponentText])
    have noMark := x.sign_text_no_mark (parts_text_no_mark parts.toNumeral)
    rw [ofText?, failed]
    change scientific? _ = _
    rw [← List.append_assoc, exponentText, if_pos (by omega),
      scientific?_marked _ noMark (plain?_signed parts x.negative)]
    change (exponent? (Nat.toDigits 10 (x.pointPlace - 1).natAbs)).bind _ = _
    rw [← exponent?_plus (to_digits_all _), exponent?_to_digits (by omega), Option.bind_some, made]
  · rw [value, value_signed_as, mul_div_assoc, div_div, ← ten_to_add_rat, places, mantissa,
      mantissa_div_ten_to _ fraction.le]

theorem json_text_value (nonzero : x.isZero = false) (small : x.pointPlace ≤ 16) :
    ∃ d, ofText? x.jsonText = some d ∧
      d.value = sign x.negative * ((x.shortest .toEven).1 * 10 ^ (x.shortest .toEven).2) := by
  rw [json_text_eq, if_neg (by simp [nonzero])]
  by_cases near : -5 < x.pointPlace
  · rw [if_pos ⟨near, small⟩, if_neg (not_le.mpr fraction)]
    exact placed_value fraction room near
  · rw [if_neg fun positional => near positional.1]
    exact marked_value fraction room (not_lt.mp near)

omit fraction room

theorem Short.text_value {mantissa scale : Nat} (short : x.Short mantissa scale) (places : scale ≤ 27)
    (fractional : mantissa % tenTo scale ≠ 0) :
    ∃ d, ofText? x.jsonText = some d ∧ d.value = sign x.negative * (mantissa / tenTo scale) := by
  obtain ⟨value, least⟩ := short.shortest .toEven
  have positive : (0 : ℚ) < mantissa / tenTo scale :=
    div_pos (by exact_mod_cast short.positive) (ten_to_pos_rat scale)
  have fraction : (x.shortest .toEven).2 < 0 := by
    by_contra whole
    obtain ⟨zeros, same⟩ := Int.eq_ofNat_of_zero_le (not_lt.mp whole)
    rw [same, zpow_natCast, eq_div_iff (ten_to_ne_zero_rat scale)] at value
    have product : (x.shortest .toEven).1 * 10 ^ zeros * tenTo scale = mantissa := by
      exact_mod_cast value
    exact fractional (product ▸ Nat.mul_mod_left _ _)
  have some : 0 < (x.shortest .toEven).1 := by
    by_contra none
    rw [Nat.eq_zero_of_not_pos none, Nat.cast_zero, zero_mul] at value
    exact absurd value positive.ne
  have small : x.pointPlace ≤ 16 := by
    have below : (mantissa / tenTo scale : ℚ) < 10 ^ (15 : ℤ) := by
      refine lt_of_le_of_lt (div_le_self (Nat.cast_nonneg _) ?_) (by exact_mod_cast short.few)
      exact_mod_cast ten_to_pos scale
    have power := (x.point_place_bounds some).1.trans_lt (value.trans_lt below)
    rw [zpow_lt_zpow_iff_right₀ (by norm_num)] at power
    omega
  rw [← value]
  exact json_text_value fraction (by omega) short.nonzero small

end Binary64

end Tariff
