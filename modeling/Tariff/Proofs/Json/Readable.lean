import Tariff.Proofs.Binary64.Reading
import Tariff.Proofs.Decimal.Binary
import Tariff.Proofs.Formula.Restored

set_option autoImplicit false

namespace Tariff

namespace Binary64

theorem Moderate.read {x : Binary64} (moderate : x.Moderate) :
    ∃ d, Decimal.ofText? x.jsonText = some d := by
  obtain ⟨small, either⟩ := moderate
  refine x.json_text_read ((upper_mono small).trans ?_) fun nonzero => ?_
  · norm_num [upper, upperEnd, largest]
  · rcases either with zero | least
    · rw [magnitude_eq_zero_iff, nonzero] at zero
      cases zero
    · refine le_trans ?_ (lower_mono least)
      norm_num [lower, lowerEnd, smallest, twoTo, tenTo]

def twoTo96 (negative : Bool) : Binary64 := ⟨negative, 4503599627370496, 44, by decide⟩

theorem nearest?_two_to_96 (negative : Bool) {n : Nat} (large : 79228162514264333195497439232 ≤ n)
    (bits : n ≤ Decimal.maxMantissa) : nearest? negative n 1 = some (twoTo96 negative) := by
  have below : n < 79228162514264337593543950336 := Nat.lt_succ_of_le bits
  have unit : twoTo 43 = 8796093022208 := rfl
  have exponent : leadingExponent n 1 = 43 := by
    have log : Nat.log2 n = 95 := (Nat.log2_eq_iff (by omega)).mpr ⟨by omega, by omega⟩
    have one : Nat.log2 1 = 0 := by decide
    have digits : twoTo 52 ≤ n * twoTo 0 / (1 * twoTo 43) := by
      rw [unit, Nat.le_div_iff_mul_le (by decide)]
      change 4503599627370496 * (1 * 8796093022208) ≤ n * 1
      omega
    unfold leadingExponent
    rw [log, one]
    exact if_pos digits
  have up : roundQuotient .toEven n 8796093022208 = 9007199254740992 := by
    have quotient : n / 8796093022208 = 9007199254740991 := by omega
    have rest := Nat.div_add_mod n 8796093022208
    unfold roundQuotient
    dsimp only
    rw [quotient] at rest ⊢
    refine if_pos ((rounds_up_iff _ _ _ _).mpr ?_)
    omega
  have positive : n ≠ 0 := by omega
  rw [nearest?, if_neg positive, exponent]
  change (if roundQuotient .toEven (n * 1) (1 * twoTo 43) = twoTo 53 then _ else _) = _
  rw [unit, Nat.mul_one, Nat.one_mul, up]
  rfl

end Binary64

namespace Scalar

theorem to_binary64?_of_binary {d : Decimal} {x : Binary64}
    (written : numberToJson d = .number (.binary x)) : d.toBinary64? = some x := by
  rcases number_to_json_whole_or d with ⟨value, _, isWord, same⟩ | same
  · rw [same] at written
    cases written
  · rw [same] at written
    unfold Json.ofDecimal at written
    split at written
    · rename_i value made
      cases written
      exact made
    · cases written

-- Halfway from the last binary number below `2 ^ 96` to `2 ^ 96`.
def readableBelow : Nat := 79228162514264333195497439232

theorem number_readable {d : Decimal} (small : d.mantissa < readableBelow * tenTo d.scale) :
    (Scalar.number d).Readable := by
  change ∃ read, ofJson? (numberToJson d) = some read
  rcases number_to_json_cases d with ⟨value, within, isWord, same⟩ | same | ⟨x, same⟩
  · have fits : value.natAbs ≤ Decimal.maxMantissa := by
      have large : Decimal.maxMantissa = 79228162514264337593543950335 := rfl
      omega
    have read : Decimal.ofInt? value = some _ := dif_pos ⟨fits, by decide⟩
    exact ⟨_, by rw [same, ofJson?, Json.Number.toDecimal?, read]; rfl⟩
  · exact ⟨.null, by rw [same]; rfl⟩
  · obtain ⟨read, made⟩ := (Decimal.to_binary64?_moderate (to_binary64?_of_binary same) small).read
    exact ⟨.number read, by rw [same, ofJson?, Json.Number.toDecimal?, made]; rfl⟩

theorem number_unreadable {d : Decimal} (large : readableBelow * tenTo d.scale ≤ d.mantissa) :
    ¬(Scalar.number d).Readable := by
  have bits : d.mantissa ≤ 79228162514264337593543950335 := d.mantissa_le
  have whole : d.scale = 0 := by
    by_contra scaled
    have ten : tenTo 1 ≤ tenTo d.scale := Nat.pow_le_pow_right (by decide) (Nat.pos_of_ne_zero scaled)
    have more := (Nat.mul_le_mul_left readableBelow ten).trans (large.trans bits)
    exact absurd more (by decide)
  rw [whole, ten_to_zero, Nat.mul_one] at large
  have above : 79228162514264333195497439232 ≤ d.mantissa := large
  have nonzero : d.isZero = false := by
    rw [Decimal.isZero, beq_eq_false_iff_ne]
    omega
  have made : d.toBinary64? = some (Binary64.twoTo96 d.negative) := by
    rw [Decimal.toBinary64?, if_pos whole, nonzero, Bool.not_false, Bool.and_true]
    exact Binary64.nearest?_two_to_96 d.negative above d.mantissa_le
  have outside : d.toInt64? = none := by
    have magnitude : d.truncate.signed.natAbs = d.mantissa := by
      rw [Decimal.nat_abs_signed]
      change d.mantissa / tenTo d.scale = d.mantissa
      rw [whole, ten_to_zero, Nat.div_one]
    exact if_neg (by omega)
  have written : numberToJson d = .number (.binary (Binary64.twoTo96 d.negative)) := by
    rw [numberToJson, outside, Option.bind_none, ite_self, Json.ofDecimal, made]
  have unread : ∀ negative, Decimal.ofText? (Binary64.twoTo96 negative).jsonText = none := by
    decide +kernel
  rintro ⟨read, same⟩
  change ofJson? (numberToJson d) = some read at same
  rw [written, ofJson?, Json.Number.toDecimal?, unread] at same
  cases same

end Scalar

end Tariff
