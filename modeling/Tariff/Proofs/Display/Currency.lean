import Tariff.Display.Currency
import Tariff.Proofs.Decimal.Fitted
import Tariff.Proofs.Decimal.Text

set_option autoImplicit false

namespace Tariff

namespace Decimal

theorem render_injective {a b : Decimal} (same : a.render = b.render) : a = b := by
  have chars : (if a.negative then ['-'] else []) ++ partsText a.wholeDigits a.fractionDigits =
      (if b.negative then ['-'] else []) ++ partsText b.wholeDigits b.fractionDigits := by
    rw [← render_chars, ← render_chars, same]
  have signs : a.negative = b.negative := by
    obtain ⟨c, more, left, digit⟩ := a.parts.toNumeral.head
    obtain ⟨d, others, right, alsoDigit⟩ := b.parts.toNumeral.head
    rw [left, right] at chars
    cases sign : a.negative <;> cases other : b.negative <;> simp only [sign, other] at chars ⊢
    · exact absurd (List.cons.inj chars).1 (digit_no_sign digit).1
    · exact absurd (List.cons.inj chars).1.symm (digit_no_sign alsoDigit).1
  have parts : partsText a.wholeDigits a.fractionDigits = partsText b.wholeDigits b.fractionDigits := by
    rw [signs] at chars
    exact List.append_cancel_left chars
  have sizes : a.abs = b.abs := by
    have read := plain?_parts a.parts
    rw [parts, plain?_parts b.parts] at read
    exact (Except.ok.inj read).symm
  cases a
  cases b
  cases signs
  cases sizes
  rfl

theorem is_whole_iff (d : Decimal) : d.isWhole = true ↔ ∃ n : ℤ, d.value = n := by
  have nonzero := ten_to_ne_zero_rat d.scale
  rw [isWhole, beq_iff_eq, ← Nat.dvd_iff_mod_eq_zero]
  constructor
  · rintro ⟨n, same⟩
    refine ⟨if d.negative then -n else n, ?_⟩
    rw [value_parts, same, sign]
    split
    · push_cast
      field_simp
    · push_cast
      field_simp
  · rintro ⟨n, same⟩
    rw [value, div_eq_iff nonzero] at same
    have whole : d.signed = tenTo d.scale * n := by
      rw [mul_comm]
      exact_mod_cast same
    rw [← d.nat_abs_signed, ← Int.natCast_dvd, whole]
    exact dvd_mul_right _ _

theorem whole_part_value {d : Decimal} (whole : d.isWhole = true) :
    (d.wholePart : ℚ) = |d.value| := by
  have split : (d.wholePart * tenTo d.scale : ℚ) = d.mantissa := by
    exact_mod_cast Nat.div_mul_cancel (Nat.dvd_of_mod_eq_zero (beq_iff_eq.mp whole))
  rw [abs_value, ← split, mul_div_cancel_right₀ _ (ten_to_ne_zero_rat _)]

theorem round_to_unsigned (tie : Tie) (places : Nat) {d : Decimal} (positive : d.negative = false) :
    d.roundTo tie places = d.shorten tie places := by
  have unsigned : (d.shorten tie places).abs = d.shorten tie places := by
    have sign : (d.shorten tie places).negative = false := by
      unfold shorten
      split
      · exact positive
      · exact positive
    rw [abs, ← sign]
  unfold roundTo
  dsimp only
  rw [unsigned, ite_self]

end Decimal

namespace Display.Currency

open Decimal

theorem amount_text_whole {d : Decimal} (whole : d.isWhole = true) :
    ∃ shown : Decimal, shown.negative = false ∧ shown.scale = 0 ∧ shown.mantissa = d.wholePart ∧
      amountText d = shown.render := by
  have alsoWhole : d.abs.isWhole = true := whole
  refine ⟨d.abs.truncate.normalize, ?_⟩
  rw [amountText, if_pos alsoWhole, Decimal.normalize]
  split
  · rename_i zero
    exact ⟨rfl, rfl, (beq_iff_eq.mp zero).symm, rfl⟩
  · exact ⟨rfl, rfl, rfl, rfl⟩

theorem amount_text_broken {d : Decimal} (broken : d.isWhole = false) (places : 2 ≤ d.scale) :
    amountText d = (d.abs.shorten .toEven 2).render := by
  have alsoBroken : d.abs.isWhole = false := broken
  have scale : (d.abs.shorten .toEven 2).scale = 2 := by
    unfold shorten
    split
    · rename_i short
      exact Nat.le_antisymm short places
    · rfl
  rw [amountText, if_neg (Bool.not_eq_true _ ▸ alsoBroken), round_to_unsigned .toEven 2 rfl, padTo,
    scale]
  rfl

end Display.Currency

end Tariff
