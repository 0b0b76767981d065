import Tariff.Scalar

set_option autoImplicit false

namespace Tariff

theorem to_string_chars (value : Int) :
    (toString value).toList =
      (if value < 0 then ['-'] else []) ++ Nat.toDigits 10 value.natAbs := by
  cases value with
  | ofNat n =>
      have positive : ¬Int.ofNat n < 0 := Int.not_lt.mpr (Int.natCast_nonneg n)
      rw [if_neg positive, List.nil_append]
      exact Nat.toList_repr
  | negSucc n =>
      rw [if_pos (Int.negSucc_lt_zero n)]
      change ("-" ++ Nat.repr (n + 1)).toList = _
      rw [String.toList_append, Nat.toList_repr]
      rfl

namespace Scalar

theorem number_to_json_is_whole {d : Decimal} (isWhole : d.isWhole = true)
    (small : -9223372036854775808 ≤ d.truncate.signed ∧ d.truncate.signed ≤ 9223372036854775807)
    (isWord : IsWord d.truncate.signed) :
    numberToJson d = .number (.whole d.truncate.signed isWord) := by
  have read : d.toInt64? = some d.truncate.signed := if_pos small
  rw [numberToJson, if_pos isWhole, read, Option.bind_some, Json.ofInt?, dif_pos isWord]

theorem number_to_json_whole {d : Decimal} (whole : d.scale = 0) {value : Int}
    (signed : d.signed = value)
    (small : -9223372036854775808 ≤ value ∧ value ≤ 9223372036854775807) (isWord : IsWord value) :
    numberToJson d = .number (.whole value isWord) := by
  have isWhole : d.isWhole = true := by
    rw [Decimal.isWhole, whole, ten_to_zero, Nat.mod_one]
    rfl
  have truncated : d.truncate.signed = value := by
    have same : d.wholePart = d.mantissa := by
      unfold Decimal.wholePart
      rw [whole, ten_to_zero, Nat.div_one]
    rw [← signed]
    change (if d.negative then -(d.wholePart : Int) else d.wholePart) = _
    rw [same]
    rfl
  subst truncated
  exact number_to_json_is_whole isWhole small isWord

theorem number_to_json_whole_or (d : Decimal) :
    (∃ value, (-9223372036854775808 ≤ value ∧ value ≤ 9223372036854775807) ∧
        ∃ isWord, numberToJson d = .number (.whole value isWord)) ∨
      numberToJson d = Json.ofDecimal d := by
  by_cases isWhole : d.isWhole = true
  · by_cases small : -9223372036854775808 ≤ d.truncate.signed ∧
        d.truncate.signed ≤ 9223372036854775807
    · have isWord : IsWord d.truncate.signed := ⟨small.1, by omega⟩
      exact .inl ⟨_, small, isWord, number_to_json_is_whole isWhole small isWord⟩
    · have read : d.toInt64? = none := if_neg small
      right
      rw [numberToJson, if_pos isWhole, read]
      rfl
  · exact .inr (if_neg isWhole)

theorem number_to_json_cases (d : Decimal) :
    (∃ value, (-9223372036854775808 ≤ value ∧ value ≤ 9223372036854775807) ∧
        ∃ isWord, numberToJson d = .number (.whole value isWord)) ∨
      numberToJson d = .null ∨ ∃ x, numberToJson d = .number (.binary x) := by
  rcases number_to_json_whole_or d with whole | same
  · exact .inl whole
  · right
    rw [same, Json.ofDecimal]
    cases d.toBinary64? with
    | none => exact .inl rfl
    | some x => exact .inr ⟨x, rfl⟩

end Scalar

end Tariff
