import Tariff.Proofs.Binary64.Restored
import Tariff.Proofs.Decimal.Precise
import Tariff.Proofs.Json.Readable

set_option autoImplicit false

namespace Tariff

namespace Scalar

open Decimal

theorem number_to_json_number (d : Decimal) : ∃ written, numberToJson d = .number written := by
  rcases number_to_json_whole_or d with ⟨value, _, isWord, same⟩ | same
  · exact ⟨_, same⟩
  · obtain ⟨x, made⟩ := d.to_binary64?_some
    exact ⟨.binary x, by rw [same, Json.ofDecimal, made]⟩

-- The number that is read where this one was written.
def readBack? (d : Decimal) : Option Decimal :=
  match numberToJson d with
  | .number written => written.toDecimal?
  | _ => none

theorem read_back?_eq {d : Decimal} {written : Json.Number} (same : numberToJson d = .number written) :
    readBack? d = written.toDecimal? := by
  rw [readBack?, same]

theorem read_back?_is_some_iff (d : Decimal) :
    (readBack? d).isSome = true ↔ d.mantissa < readableBelow * tenTo d.scale := by
  obtain ⟨written, same⟩ := number_to_json_number d
  have readable : (Scalar.number d).Readable ↔ (readBack? d).isSome = true := by
    change (∃ read, ofJson? (numberToJson d) = some read) ↔ _
    rw [read_back?_eq same, same, ofJson?, ← Option.isSome_iff_exists, Option.isSome_map]
  rw [← readable]
  constructor
  · intro read
    exact not_le.mp fun large => number_unreadable large read
  · exact number_readable

theorem read_back?_fractional {d : Decimal} (fractional : d.Fractional) :
    ∃ read, readBack? d = some read ∧ read.value = d.value := by
  obtain ⟨x, made, negative, short⟩ := fractional.to_binary64?_short
  have written : numberToJson d = .number (.binary x) := by
    have notWhole : ¬d.isWhole = true := fun whole => fractional.notWhole (beq_iff_eq.mp whole)
    rw [numberToJson, if_neg notWhole, Json.ofDecimal, made]
  obtain ⟨read, restored, value⟩ :=
    short.text_value (fractional.places.trans (by decide)) fractional.notWhole
  exact ⟨read, (read_back?_eq written).trans restored, by rw [value, negative, value_parts]⟩

theorem read_back?_whole {d : Decimal} (isWhole : d.isWhole = true)
    (small : -9223372036854775808 ≤ d.truncate.signed ∧ d.truncate.signed ≤ 9223372036854775807) :
    ∃ read, readBack? d = some read ∧ read.value = d.value := by
  have isWord : IsWord d.truncate.signed := ⟨small.1, by omega⟩
  have fits : d.truncate.signed.natAbs ≤ maxMantissa := by
    have large : maxMantissa = 79228162514264337593543950335 := rfl
    omega
  refine ⟨⟨d.truncate.signed < 0, d.truncate.signed.natAbs, 0, fits, by decide⟩, ?_, ?_⟩
  · exact (read_back?_eq (number_to_json_is_whole isWhole small isWord)).trans (dif_pos ⟨fits, by decide⟩)
  · have split : d.wholePart * tenTo d.scale = d.mantissa :=
      Nat.div_mul_cancel (Nat.dvd_of_mod_eq_zero (beq_iff_eq.mp isWhole))
    have cut : d.truncate.value = d.truncate.signed := by
      have scale : d.truncate.scale = 0 := rfl
      rw [value, scale, ten_to_zero, Nat.cast_one, div_one]
    calc value _ = d.truncate.signed := by
          rw [value_parts, ten_to_zero, Nat.cast_one, div_one, sign_nat_abs]
      _ = sign d.negative * (d.wholePart / tenTo 0) := by
          rw [← cut, value_parts]
          rfl
      _ = d.value := by
          rw [value_parts, ← split, Nat.cast_mul, mul_div_cancel_right₀ _ (ten_to_ne_zero_rat _),
            ten_to_zero, Nat.cast_one, div_one]

-- Whole numbers of 64 bits, and numbers of few digits.
def Kept (d : Decimal) : Prop :=
  (d.isWhole = true ∧
      -9223372036854775808 ≤ d.truncate.signed ∧ d.truncate.signed ≤ 9223372036854775807) ∨
    (d.mantissa < 10 ^ 15 ∧ d.scale ≤ 22)

theorem read_back?_kept {d : Decimal} (kept : Kept d) :
    ∃ read, readBack? d = some read ∧ read.value = d.value := by
  rcases kept with ⟨isWhole, small⟩ | ⟨few, places⟩
  · exact read_back?_whole isWhole small
  · by_cases isWhole : d.isWhole = true
    · refine read_back?_whole isWhole ?_
      have size : d.truncate.signed.natAbs ≤ d.mantissa := by
        rw [nat_abs_signed]
        exact Nat.div_le_self _ _
      omega
    · exact read_back?_fractional ⟨few, places, fun none => isWhole (beq_iff_eq.mpr none)⟩

end Scalar

end Tariff
