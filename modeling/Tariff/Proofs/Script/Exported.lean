import Tariff.Proofs.Formula.Confined
import Tariff.Proofs.Formula.Decoded
import Tariff.Proofs.Json.Readable
import Tariff.Proofs.Script.Meaning
import Tariff.Proofs.Script.Yielded

set_option autoImplicit false

namespace Tariff

theorem Decimal.abs_value_lt (d : Decimal) (n : Nat) :
    |d.value| < n ↔ d.mantissa < n * tenTo d.scale := by
  rw [abs_value, div_lt_iff₀ (ten_to_pos_rat d.scale)]
  exact_mod_cast Iff.rfl

theorem Scalar.number_readable_iff (number : Decimal) :
    (Scalar.number number).Readable ↔ |number.value| < readableBelow := by
  rw [Decimal.abs_value_lt]
  refine ⟨fun readable => ?_, number_readable⟩
  by_contra large
  exact number_unreadable (not_lt.mp large) readable

namespace Formula

theorem readable_scalars_iff (formula : Formula) :
    (∀ scalar ∈ formula.scalars, scalar.Readable) ↔
      ∀ number : Decimal, .number number ∈ formula.scalars → |number.value| < Scalar.readableBelow := by
  refine ⟨fun readable number member => ?_, fun small scalar member => ?_⟩
  · exact (Scalar.number_readable_iff number).mp (readable _ member)
  · cases scalar with
    | number number => exact (Scalar.number_readable_iff number).mpr (small number member)
    | null => exact ⟨.null, rfl⟩
    | bool value => exact ⟨.bool value, rfl⟩
    | text value => exact ⟨.text value, rfl⟩

theorem WellShaped.exported_iff {formula : Formula} (shaped : formula.WellShaped) :
    (∃ read, ofJson formula.toJson = .ok read) ↔
      ∀ number : Decimal, .number number ∈ formula.scalars → |number.value| < Scalar.readableBelow := by
  rw [of_json_to_json_iff, Sendable, and_iff_right shaped, readable_scalars_iff]

end Formula

theorem Script.Sound.well_shaped {formula : Formula} (isSound : Sound formula) : formula.WellShaped := by
  refine Formula.Written.well_shaped (fun path isDotted empty => ?_) formula isSound
  obtain ⟨c, more, same, _⟩ := isDotted.starts
  rw [empty] at same
  cases same

theorem read_formulas_are_well_shaped (json : Json) (text : String) :
    (∀ formula, Formula.ofJson json = .ok formula →
        formula.WellShaped ∧
          ∀ environment op, formula.evaluate environment ≠ .error (.noOperands op)) ∧
      ∀ script, Script.ofString text = .ok script → ∀ rule ∈ script.rules,
        ∃ formula, rule.2.price = .formula formula ∧ formula.WellShaped ∧
          (∀ environment op, formula.evaluate environment ≠ .error (.noOperands op)) ∧
          ((∃ read, Formula.ofJson formula.toJson = .ok read) ↔
            ∀ number : Decimal, .number number ∈ formula.scalars →
              |number.value| < Scalar.readableBelow) := by
  constructor
  · intro formula read
    have shaped := Formula.of_json_gives json formula read
    exact ⟨shaped, shaped.has_operands⟩
  · intro script read rule member
    obtain ⟨formula, priced, isSound⟩ := ((Script.of_string_is_sound read).rules rule member).priced
    have shaped := Script.Sound.well_shaped isSound
    exact ⟨formula, priced, shaped, shaped.has_operands, shaped.exported_iff⟩

theorem is_word_one : IsWord 1 := by decide

def nightsJson : Json :=
  .object [("-", .array [.object [("var", .string "camper.nights")], .number (.whole 1 is_word_one)])]

def nights : Formula :=
  .arithmetic .subtract [.field "camper.nights" none, .literal (.number .one)]

theorem read_formulas_are_well_shaped_nights :
    (∃ formula, Formula.ofJson nightsJson = .ok formula ∧ formula.WellShaped ∧
        ∀ environment op, formula.evaluate environment ≠ .error (.noOperands op)) ∧
      ∃ script formula, Script.ofString "camper r:\n(camper.nights - 1)" = .ok script ∧
        script.rules = [(.camper, ⟨"r", none, .formula formula⟩)] ∧ formula.WellShaped ∧
        (∀ environment op, formula.evaluate environment ≠ .error (.noOperands op)) ∧
        ∃ read, Formula.ofJson formula.toJson = .ok read := by
  obtain ⟨fromJson, fromScript⟩ :=
    read_formulas_are_well_shaped nightsJson "camper r:\n(camper.nights - 1)"
  constructor
  · exact ⟨_, rfl, fromJson _ rfl⟩
  · have path : Script.IsPath "camper.nights".toList :=
      ⟨⟨⟨'c', _, rfl, by decide⟩, by decide⟩, by decide⟩
    have legible : Script.Legible nights :=
      ⟨⟨.inr rfl, fun same => by cases same⟩, ⟨path, fun _ absent => by cases absent⟩, trivial, trivial⟩
    have text : "camper r:\n" ++ nights.render = "camper r:\n(camper.nights - 1)" := by decide +kernel
    have read : Script.ofString "camper r:\n(camper.nights - 1)" = .ok _ :=
      text ▸ Script.of_string_rule_body legible
    obtain ⟨formula, priced, shaped, operands, exported⟩ :=
      fromScript _ read _ (List.mem_singleton_self _)
    cases priced
    refine ⟨_, _, read, rfl, shaped, operands, exported.mpr fun number member => ?_⟩
    cases List.mem_singleton.mp member
    exact (Decimal.abs_value_lt _ _).mpr (by decide)

theorem largest_number_is_not_exported :
    ∃ script formula, Script.ofString "camper r:\n79228162514264337593543950335" = .ok script ∧
      script.rules = [(.camper, ⟨"r", none, .formula formula⟩)] ∧
      Formula.ofJson formula.toJson = .error (.invalidNumber "7.922816251426434e+28") := by
  let largest : Scalar := .number ⟨false, 79228162514264337593543950335, 0, by decide, by decide⟩
  have text : "camper r:\n" ++ (Formula.literal largest).render =
      "camper r:\n79228162514264337593543950335" := by decide +kernel
  have read : Script.ofString "camper r:\n79228162514264337593543950335" = .ok _ :=
    text ▸ Script.of_string_rule_body (show Script.Legible (.literal largest) from trivial)
  refine ⟨_, .literal largest, read, rfl, ?_⟩
  have unread : Scalar.ofJson? largest.toJson = none := by decide +kernel
  have written : largest.toJson.text = "7.922816251426434e+28" := by decide +kernel
  rw [Formula.toJson, Formula.of_json_scalar, Formula.literalOfJson, unread, written]

end Tariff
