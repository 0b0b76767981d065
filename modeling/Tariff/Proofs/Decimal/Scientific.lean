import Tariff.Proofs.Decimal.Fitted
import Tariff.Proofs.Decimal.Text

set_option autoImplicit false

namespace Tariff.Decimal

theorem digit_value_lt {c : Char} (digit : isDigit c = true) : digitValue c < 10 := by
  simp only [isDigit, Bool.and_eq_true, decide_eq_true_eq] at digit
  have upper : c.toNat ≤ 57 := digit.2
  have zero : '0'.toNat = 48 := rfl
  unfold digitValue
  omega

theorem append_digits_lt (value : Nat) {digits : List Char} (all : digits.all isDigit = true) :
    digits.foldl appendDigit value < (value + 1) * tenTo digits.length := by
  induction digits generalizing value with
  | nil =>
      rw [List.foldl_nil, List.length_nil, ten_to_zero]
      omega
  | cons c rest ih =>
      rw [List.all_cons, Bool.and_eq_true] at all
      have longer : appendDigit value c + 1 ≤ (value + 1) * 10 := by
        have small := digit_value_lt all.1
        unfold appendDigit
        omega
      calc rest.foldl appendDigit (appendDigit value c)
          < (appendDigit value c + 1) * tenTo rest.length := ih _ all.2
        _ ≤ (value + 1) * 10 * tenTo rest.length := Nat.mul_le_mul_right _ longer
        _ = (value + 1) * tenTo (rest.length + 1) := by rw [ten_to_succ]; ring

theorem digits_value_lt {digits : List Char} (all : digits.all isDigit = true) :
    digitsValue digits < tenTo digits.length := by
  have less := append_digits_lt 0 all
  rwa [Nat.zero_add, Nat.one_mul] at less

theorem ten_to_mono {fewer more : Nat} (le : fewer ≤ more) : tenTo fewer ≤ tenTo more :=
  Nat.pow_le_pow_right (by decide) le

theorem Numeral.parts {whole fraction : List Char} (numeral : Numeral whole fraction)
    (short : whole.length + fraction.length ≤ maxScale) :
    ∃ d : Decimal, d.Parts whole fraction ∧ d.scale = fraction.length ∧
      d.mantissa = digitsValue (whole ++ fraction) := by
  have all : (whole ++ fraction).all isDigit = true := by
    rw [List.all_append, numeral.wholeDigits, numeral.fractionDigits]
    rfl
  have fits : digitsValue (whole ++ fraction) ≤ maxMantissa := by
    have less := digits_value_lt all
    rw [List.length_append] at less
    exact Nat.le_trans less.le (Nat.le_trans (ten_to_mono short) (by decide))
  have scale : fraction.length ≤ maxScale := Nat.le_trans (Nat.le_add_left _ _) short
  exact ⟨⟨false, _, _, fits, scale⟩, ⟨numeral, rfl, rfl⟩, rfl, rfl⟩

theorem plain?_signed {d : Decimal} {whole fraction : List Char} (parts : d.Parts whole fraction)
    (negative : Bool) :
    plain? ((if negative then ['-'] else []) ++ partsText whole fraction) =
      .ok (d.signedAs negative) := by
  rw [← Reading.parts_read parts negative]
  cases negative with
  | true => rfl
  | false =>
      obtain ⟨c, more, same, digit⟩ := parts.toNumeral.head
      rw [same]
      exact plain?_unsigned digit _

theorem of_text?_numeral {most : Nat} {text : List Char} (isNumeral : IsNumeral most text)
    (short : most ≤ maxScale) (negative : Bool) :
    ∃ d, ofText? ((if negative then ['-'] else []) ++ text) = some d := by
  obtain ⟨whole, fraction, numeral, length, same⟩ := isNumeral
  obtain ⟨d, parts, _⟩ := numeral.parts (Nat.le_trans length short)
  rw [same, ofText?, plain?_signed parts negative]
  exact ⟨_, rfl⟩

theorem shift_down?_short (d : Decimal) {exponent : Nat} (le : exponent ≤ maxScale) :
    ∃ shifted, d.shiftDown? exponent = some shifted := by
  rw [shiftDown?, if_neg (by omega)]
  refine Option.ne_none_iff_exists'.mp (of_parts?_ne_none _ (mantissa_le _) ?_)
  have places : (d.shorten .awayFromZero (maxScale - exponent)).scale ≤ maxScale - exponent := by
    by_cases short : d.scale ≤ maxScale - exponent
    · rw [shorten, dif_pos short]
      exact short
    · rw [shorten, dif_neg short]
  omega

theorem value_mul_ten_to (d : Decimal) {power : Nat} (le : d.scale ≤ power) :
    d.value * tenTo power = (d.signed * tenTo (power - d.scale) : ℤ) := by
  have split : (tenTo power : ℚ) = tenTo d.scale * tenTo (power - d.scale) := by
    rw [← ten_to_add_rat, Nat.add_sub_cancel' le]
  have nonzero := ten_to_ne_zero_rat d.scale
  rw [split, value]
  push_cast
  field_simp

theorem mul?_ten_to (d : Decimal) {power : Nat} (short : power ≤ maxScale) {n : ℤ}
    (whole : d.value * tenTo power = n) (small : n.natAbs ≤ maxMantissa) :
    ∃ product, (ofNat? (tenTo power)).bind (mul? d) = some product ∧ product.value = n := by
  have fits : tenTo power ≤ maxMantissa := Nat.le_trans (ten_to_mono short) (by decide)
  obtain ⟨ten, made, value⟩ :
      ∃ ten : Decimal, ofNat? (tenTo power) = some ten ∧ ten.value = tenTo power := by
    refine ⟨⟨false, tenTo power, 0, fits, by decide⟩, dif_pos ⟨fits, by decide⟩, ?_⟩
    simp [Decimal.value, signed, ten_to_zero]
  have exact : fitted (d.value * ten.value) = some (d.value * ten.value) := by
    refine fitted_exact _ 0 n ?_ (by decide) small
    rw [value, whole, ten_to_zero, Nat.cast_one, mul_one]
  rw [← value_mul?] at exact
  obtain ⟨product, multiplied, same⟩ := Option.map_eq_some_iff.mp exact
  exact ⟨product, by rw [made]; exact multiplied, by rw [same, value, whole]⟩

theorem shift_up?_fits (d : Decimal) {power : Nat} (short : d.scale ≤ 19) (le : power ≤ maxScale)
    (fits : d.mantissa * tenTo (power - d.scale) ≤ maxMantissa) :
    ∃ shifted, d.shiftUp? power = some shifted := by
  have magnitude (power : Nat) :
      (d.signed * tenTo (power - d.scale) : ℤ).natAbs = d.mantissa * tenTo (power - d.scale) := by
    rw [Int.natAbs_mul, nat_abs_signed, Int.natAbs_natCast]
  by_cases inside : power ≤ d.scale
  · rw [shiftUp?, if_pos inside]
    refine Option.ne_none_iff_exists'.mp (of_parts?_ne_none _ d.mantissa_le ?_)
    exact Nat.le_trans (Nat.sub_le _ _) d.scale_le
  · rw [shiftUp?, if_neg inside, if_neg (by omega)]
    by_cases single : power ≤ 19
    · obtain ⟨product, made, _⟩ :=
        mul?_ten_to d le (d.value_mul_ten_to (by omega)) (magnitude power ▸ fits)
      simp [single, made]
    · have less : d.mantissa * tenTo (19 - d.scale) ≤ d.mantissa * tenTo (power - d.scale) :=
        Nat.mul_le_mul_left _ (ten_to_mono (by omega))
      obtain ⟨first, made, same⟩ := mul?_ten_to d (by decide) (d.value_mul_ten_to short)
        (magnitude 19 ▸ Nat.le_trans less fits)
      have whole : first.value * tenTo (power - 19) = (d.signed * tenTo (power - d.scale) : ℤ) := by
        rw [same, ← d.value_mul_ten_to short, mul_assoc, ← ten_to_add_rat,
          show 19 + (power - 19) = power by omega, d.value_mul_ten_to (by omega)]
      obtain ⟨product, alsoMade, _⟩ :=
        mul?_ten_to first (by omega) whole (magnitude power ▸ fits)
      simp [single, made, alsoMade]

theorem exponent?_plus {digits : List Char} (all : digits.all isDigit = true) :
    exponent? ('+' :: digits) = exponent? digits := by
  conv => rhs; unfold exponent?
  split
  · exact absurd rfl (digit_no_sign (List.all_eq_true.mp all _ (.head _))).2
  · rfl

theorem exponent?_to_digits {power : Nat} (small : power ≤ 4294967295) :
    exponent? ('+' :: Nat.toDigits 10 power) = some power := by
  have some : (Nat.toDigits 10 power).isEmpty = false :=
    List.isEmpty_eq_false_iff.mpr Nat.toDigits_ne_nil
  simp [exponent?, some, to_digits_all, to_digits_value, small]

theorem scientific?_marked {base : List Char} {d : Decimal} (power : List Char)
    (noMark : ∀ c ∈ base, (c == 'e' || c == 'E') = false) (read : plain? base = .ok d) :
    scientific? (base ++ 'e' :: power) =
      match power with
      | '-' :: rest => (exponent? rest).bind d.shiftDown?
      | rest => (exponent? rest).bind d.shiftUp? := by
  have unmarked : ∀ c ∈ base, (!(c == 'e' || c == 'E')) = true := by
    intro c member
    rw [noMark c member]
    rfl
  have front : (base ++ 'e' :: power).takeWhile (fun c => !(c == 'e' || c == 'E')) = base := by
    rw [List.takeWhile_append_of_pos unmarked]
    simp
  have behind : (base ++ 'e' :: power).dropWhile (fun c => !(c == 'e' || c == 'E')) =
      'e' :: power := by
    rw [List.dropWhile_append_of_pos unmarked]
    simp
  unfold scientific?
  dsimp only
  rw [behind]
  dsimp only
  rewrite [front, read]
  rfl

end Tariff.Decimal
