import Tariff.Proofs.Display.Currency
import Tariff.Proofs.Pricing.Sum

set_option autoImplicit false

namespace Tariff

namespace Decimal

-- A decimal text for a number: its digits, and a point among them or none.
def Spells (text : List Char) (q : ℚ) : Prop :=
  ∃ whole fraction, Numeral whole fraction ∧ text = partsText whole fraction ∧
    (digitsValue (whole ++ fraction) : ℚ) / tenTo fraction.length = q

theorem value_unsigned {d : Decimal} (unsigned : d.negative = false) :
    d.value = d.mantissa / tenTo d.scale := by
  simp [value_parts, unsigned, sign]

theorem value_abs (d : Decimal) : d.abs.value = |d.value| := by
  rw [abs_value, value_unsigned (rfl : d.abs.negative = false)]
  rfl

theorem render_spells {d : Decimal} (unsigned : d.negative = false) : Spells d.render.toList d.value := by
  refine ⟨d.wholeDigits, d.fractionDigits, d.parts.toNumeral, ?_, ?_⟩
  · simp [render_chars, unsigned]
  · rw [d.parts.value, d.parts.length, value_unsigned unsigned]

theorem pad_to_value (places : Nat) (d : Decimal) :
    (d.padTo places).negative = d.negative ∧ (d.padTo places).value = d.value := by
  rw [padTo]
  generalize places - d.scale = missing
  induction missing generalizing d with
  | zero => exact ⟨rfl, rfl⟩
  | succ missing ih =>
      rw [padTo.go]
      cases made : ofParts? d.negative (d.mantissa * 10) (d.scale + 1) with
      | none => exact ⟨rfl, rfl⟩
      | some longer =>
          obtain ⟨negative, mantissa, scale⟩ := of_parts?_eq_some made
          obtain ⟨sign, value⟩ := ih longer
          refine ⟨sign.trans negative, value.trans ?_⟩
          rw [value_parts, value_parts, negative, mantissa, scale, ten_to_succ]
          push_cast
          field_simp

end Decimal

namespace Display.Currency

open Decimal

theorem amount_text_short {d : Decimal} (short : d.scale ≤ 2) :
    ∃ shown : Decimal, shown.negative = false ∧ shown.value = |d.value| ∧
      amountText d = shown.render := by
  cases whole : d.isWhole with
  | true =>
      obtain ⟨shown, sign, scale, mantissa, text⟩ := amount_text_whole whole
      refine ⟨shown, sign, ?_, text⟩
      rw [value_unsigned sign, scale, mantissa, whole_part_value whole, ten_to_zero, Nat.cast_one, div_one]
  | false =>
      have broken : d.abs.isWhole = false := whole
      have kept : d.abs.roundTo .toEven 2 = d.abs := round_to_short .toEven 2 d.abs short
      obtain ⟨sign, value⟩ := d.abs.pad_to_value 2
      exact ⟨d.abs.padTo 2, sign, value.trans d.value_abs, by simp [amountText, broken, kept]⟩

theorem negative_iff (d : Decimal) : (d.negative && !d.isZero) = true ↔ d.value < 0 := by
  by_cases zero : d.isZero = true
  · simp [zero, (is_zero_iff d).mp zero]
  · have size : 0 < (d.mantissa / tenTo d.scale : ℚ) := by
      rw [← abs_value, abs_pos]
      exact mt (is_zero_iff d).mpr zero
    rw [value_parts]
    cases d.negative with
    | false => simpa [Decimal.sign] using size.le
    | true => simpa [Decimal.sign, zero] using size

theorem format_chars (currency : Currency) (d : Decimal) :
    (currency.format d).toList =
      (if d.value < 0 then ['-'] else []) ++ currency.symbol.toList ++ (amountText d).toList := by
  by_cases negative : d.value < 0
  · have sign := (negative_iff d).mpr negative
    simp [format, sign, negative]
  · have sign := mt (negative_iff d).mp negative
    simp [format, sign, negative]

-- A symbol may begin with a minus sign too, but a number does not begin with one.
theorem sign_apart (symbol left right : List Char) (c : Char) (noSign : c ≠ '-') :
    '-' :: (symbol ++ left) ≠ symbol ++ c :: right := by
  induction symbol with
  | nil =>
      intro same
      exact noSign (List.cons.inj same).1.symm
  | cons first rest ih =>
      intro same
      obtain ⟨sign, later⟩ := List.cons.inj same
      exact ih (sign ▸ later)

theorem amount_text_head {d : Decimal} (short : d.scale ≤ 2) :
    ∃ c more, (amountText d).toList = c :: more ∧ c ≠ '-' := by
  obtain ⟨shown, sign, _, text⟩ := amount_text_short short
  obtain ⟨c, more, same, digit⟩ := shown.parts.toNumeral.head
  exact ⟨c, more, by simp [text, render_chars, sign, same], (digit_no_sign digit).1⟩

theorem negative_of_same {currency : Currency} {a b : Decimal} (short : b.scale ≤ 2)
    (same : currency.format a = currency.format b) (negative : a.value < 0) : b.value < 0 := by
  by_contra nonnegative
  have chars := congrArg String.toList same
  obtain ⟨c, more, text, noSign⟩ := amount_text_head short
  simp only [format_chars, negative, nonnegative, if_true, if_false, text, List.cons_append,
    List.nil_append] at chars
  exact sign_apart _ _ _ c noSign chars

theorem format_injective {currency : Currency} {a b : Decimal} (short : a.scale ≤ 2)
    (alsoShort : b.scale ≤ 2) (same : currency.format a = currency.format b) : a.value = b.value := by
  have signs : a.value < 0 ↔ b.value < 0 :=
    ⟨negative_of_same alsoShort same, negative_of_same short same.symm⟩
  have texts : amountText a = amountText b := by
    have chars := congrArg String.toList same
    simp only [format_chars, signs] at chars
    exact String.toList_inj.mp (List.append_cancel_left chars)
  obtain ⟨left, _, leftValue, leftText⟩ := amount_text_short short
  obtain ⟨right, _, rightValue, rightText⟩ := amount_text_short alsoShort
  have sizes : |a.value| = |b.value| := by
    rw [leftText, rightText] at texts
    rw [← leftValue, ← rightValue, render_injective texts]
  by_cases negative : a.value < 0
  · rwa [abs_of_neg negative, abs_of_neg (signs.mp negative), neg_inj] at sizes
  · rwa [abs_of_nonneg (not_lt.mp negative), abs_of_nonneg (not_lt.mp (mt signs.mpr negative))] at sizes

end Display.Currency

-- The amounts of the campers and of the registration that are available, and the total.
def Quote.amounts (quote : Quote) : List Decimal :=
  quote.total :: (quote.campers ++ [quote.registration]).flatMap (·.filterMap (·.2))

theorem Pricing.amounts_short (rules : RuleSet) (form : Form) :
    ∀ amount ∈ (rules.price form).amounts, amount.scale ≤ 2 := by
  intro amount quoted
  rcases List.mem_cons.mp quoted with total | listed
  · exact total ▸ total_short rules form
  · obtain ⟨amounts, member, available⟩ := List.mem_flatMap.mp listed
    obtain ⟨line, held, present⟩ := List.mem_filterMap.mp available
    rcases List.mem_append.mp member with campers | registration
    · exact price_campers_short _ _ _ _ _ amounts campers line held amount present
    · rw [List.mem_singleton.mp registration] at held
      exact registration_short rules form line held amount present

open Display in
theorem quoted_amounts_are_shown_in_full (rules : RuleSet) (form : Form) (amount : Decimal)
    (quoted : amount ∈ (rules.price form).amounts) (currency : Currency) :
    (∃ text, (currency.format amount).toList =
        (if amount.value < 0 then ['-'] else []) ++ currency.symbol.toList ++ text ∧
        Decimal.Spells text |amount.value|) ∧
      ∀ (others : RuleSet) (elsewhere : Form), ∀ other ∈ (others.price elsewhere).amounts,
        currency.format other = currency.format amount → other.value = amount.value := by
  have short := Pricing.amounts_short rules form amount quoted
  constructor
  · obtain ⟨shown, unsigned, value, text⟩ := Currency.amount_text_short short
    refine ⟨_, currency.format_chars amount, ?_⟩
    rw [text, ← value]
    exact Decimal.render_spells unsigned
  · intro others elsewhere other alsoQuoted same
    exact Currency.format_injective (Pricing.amounts_short others elsewhere other alsoQuoted) short same

-- A refund of ten cents beside a fee whose text has no room for a second digit behind the point.
def refundRules : RuleSet :=
  { camper := [⟨"fee", none, .ok (.field "camper.fee" none)⟩]
    registration := [⟨"total", none, .ok (.sumOf "fee")⟩]
    constants := .empty
    total := "total" }

def refundForm : Form := feeForm ["-0.1", "7922816251426433759354395033.5"]

open Display in
theorem quoted_amounts_are_shown_in_full_refund :
    ∃ refund fee, refund ∈ (refundRules.price refundForm).amounts ∧
      fee ∈ (refundRules.price refundForm).amounts ∧
      Currency.dollar.format refund = "-$0.10" ∧
      Currency.dollar.format fee = "$7922816251426433759354395033.5" ∧
      ∃ text, "-$0.10".toList = ['-'] ++ ['$'] ++ text ∧ Decimal.Spells text |refund.value| := by
  let refund : Decimal := ⟨true, 1, 1, by decide, by decide⟩
  have quoted : refund ∈ (refundRules.price refundForm).amounts := by decide +kernel
  have shown : Currency.dollar.format refund = "-$0.10" := by decide +kernel
  have negative : refund.value < 0 := (Display.Currency.negative_iff refund).mp (by decide)
  refine ⟨refund, ⟨false, Decimal.maxMantissa, 1, by decide, by decide⟩, quoted, by decide +kernel, shown,
    by decide +kernel, ?_⟩
  obtain ⟨text, chars, spelled⟩ :=
    (quoted_amounts_are_shown_in_full refundRules refundForm refund quoted Currency.dollar).1
  rw [shown, if_pos negative] at chars
  exact ⟨text, chars, spelled⟩

end Tariff
