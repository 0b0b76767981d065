import Tariff.Display.Board
import Tariff.Proofs.Display.Currency
import Tariff.Proofs.Environment.Below
import Tariff.Proofs.Pricing.Rendered
import Tariff.Proofs.Pricing.Trusted

/-! A board rounds a half to the even neighbour and a quote away from zero, and a board shows two digits
of a constant whose digits behind the point are only rounded off. Elsewhere the two texts agree. -/

set_option autoImplicit false

namespace Tariff

namespace Display.Currency

open Decimal

-- A number whose cents do not depend on how a half is rounded, and which has cents to show.
def ShownAlike (q : ℚ) : Prop :=
  rounded .toEven 2 q = rounded .awayFromZero 2 q ∧ ¬∃ n : ℤ, rounded .awayFromZero 2 q = n

theorem shorten_long {d : Decimal} (long : 2 < d.scale) (tie : Tie) :
    (d.shorten tie 2).negative = d.negative ∧ (d.shorten tie 2).scale = 2 := by
  rw [shorten, dif_neg (Nat.not_le.mpr long)]
  exact ⟨rfl, rfl⟩

theorem to_amount_abs (d : Decimal) :
    (Pricing.toAmount d).abs = (d.shorten .awayFromZero 2).abs := by
  unfold Pricing.toAmount roundTo
  dsimp only
  split
  · rfl
  · rfl

-- Both are hundredths with the sign of `d`, so they are told by their mantissas.
theorem shorten_abs_eq_iff {d : Decimal} (long : 2 < d.scale) :
    (d.shorten .toEven 2).abs = (d.shorten .awayFromZero 2).abs ↔
      rounded .toEven 2 d.value = rounded .awayFromZero 2 d.value := by
  obtain ⟨evenSign, evenScale⟩ := shorten_long long .toEven
  obtain ⟨awaySign, awayScale⟩ := shorten_long long .awayFromZero
  rw [← value_shorten, ← value_shorten]
  constructor
  · intro same
    have mantissas : (d.shorten .toEven 2).abs.mantissa = (d.shorten .awayFromZero 2).abs.mantissa :=
      congrArg mantissa same
    change (d.shorten .toEven 2).mantissa = (d.shorten .awayFromZero 2).mantissa at mantissas
    rw [value_parts, value_parts, evenSign, awaySign, evenScale, awayScale, mantissas]
  · intro same
    rw [value_parts, value_parts, evenSign, awaySign, evenScale, awayScale,
      mul_right_inj' (sign_ne_zero _), div_left_inj' (ten_to_ne_zero_rat 2), Nat.cast_inj] at same
    simp only [Decimal.abs, evenScale, awayScale, same]

theorem amount_text_to_amount_long {d : Decimal} (long : 2 < d.scale) (broken : d.isWhole = false) :
    amountText d = amountText (Pricing.toAmount d) ↔ ShownAlike d.value := by
  obtain ⟨_, evenScale⟩ := shorten_long long .toEven
  obtain ⟨_, awayScale⟩ := shorten_long long .awayFromZero
  have amount := to_amount_abs d
  have charged : (Pricing.toAmount d).value = rounded .awayFromZero 2 d.value := value_round_to _ _ _
  have scale : (Pricing.toAmount d).scale = 2 := (congrArg Decimal.scale amount).trans awayScale
  have shown : d.abs.shorten .toEven 2 = (d.shorten .toEven 2).abs := by
    have alsoLong : 2 < d.abs.scale := long
    rw [shorten, shorten, dif_neg (Nat.not_le.mpr long), dif_neg (Nat.not_le.mpr alsoLong)]
    rfl
  rw [amount_text_broken broken long.le, shown, ShownAlike, ← charged, ← is_whole_iff]
  cases whole : (Pricing.toAmount d).isWhole with
  | true =>
      obtain ⟨other, _, noPlaces, _, text⟩ := amount_text_whole whole
      rw [text]
      constructor
      · intro same
        have scales : (d.shorten .toEven 2).abs.scale = other.scale := by
          rw [render_injective same]
        rw [noPlaces] at scales
        exact absurd (evenScale.symm.trans scales) (by decide)
      · intro alike
        exact absurd rfl alike.2
  | false =>
      have short : (Pricing.toAmount d).abs.shorten .toEven 2 = (Pricing.toAmount d).abs :=
        dif_pos scale.le
      rw [amount_text_broken whole scale.ge, short, amount, charged, ← shorten_abs_eq_iff long]
      constructor
      · intro same
        exact ⟨render_injective same, Bool.false_ne_true⟩
      · intro alike
        exact congrArg render alike.1

theorem amount_text_whole_value {a b : Decimal} (whole : a.isWhole = true)
    (alsoWhole : b.isWhole = true) (same : a.value = b.value) : amountText a = amountText b := by
  have parts : a.wholePart = b.wholePart := by
    have sizes := whole_part_value whole
    rw [same, ← whole_part_value alsoWhole] at sizes
    exact_mod_cast sizes
  obtain ⟨left, sign, scale, mantissa, text⟩ := amount_text_whole whole
  obtain ⟨right, otherSign, otherScale, otherMantissa, otherText⟩ := amount_text_whole alsoWhole
  rw [text, otherText]
  congr 1
  cases left
  cases right
  cases sign
  cases otherSign
  cases scale
  cases otherScale
  cases mantissa.trans (parts.trans otherMantissa.symm)
  rfl

theorem amount_text_to_amount (d : Decimal) :
    amountText d = amountText (Pricing.toAmount d) ↔ InCents d.value ∨ ShownAlike d.value := by
  by_cases short : d.scale ≤ 2
  · have same : Pricing.toAmount d = d := round_to_short .awayFromZero 2 d short
    rw [same]
    exact iff_of_true rfl (.inl (in_cents_short short))
  · have long : 2 < d.scale := Nat.lt_of_not_le short
    have charged : (Pricing.toAmount d).value = rounded .awayFromZero 2 d.value := value_round_to _ _ _
    cases whole : d.isWhole with
    | true =>
        obtain ⟨n, same⟩ := (is_whole_iff d).mp whole
        have cents : InCents d.value := ⟨n * tenTo 2, by rw [same]; push_cast; rfl⟩
        rw [rounded_cents .awayFromZero cents] at charged
        have alsoWhole : (Pricing.toAmount d).isWhole = true :=
          (is_whole_iff _).mpr ⟨n, charged.trans same⟩
        exact iff_of_true (amount_text_whole_value whole alsoWhole charged.symm) (.inl cents)
    | false =>
        rw [amount_text_to_amount_long long whole]
        constructor
        · exact .inr
        · rintro (cents | alike)
          · refine ⟨?_, ?_⟩
            · rw [rounded_cents .toEven cents, rounded_cents .awayFromZero cents]
            · rw [rounded_cents .awayFromZero cents, ← is_whole_iff, whole]
              exact Bool.false_ne_true
          · exact alike

theorem format_abs (currency : Currency) (d : Decimal) :
    currency.format d.abs = currency.symbol ++ amountText d := by
  have unsigned : d.abs.negative = false := rfl
  have text : amountText d.abs = amountText d := rfl
  simp [format, unsigned, text]

end Display.Currency

namespace Named

variable {α : Type}

theorem lookup_foldl_put (entries : List (String × α)) (named : Named α) (name : String) (value : α)
    (only : ∀ entry ∈ entries, entry.1 = name → entry.2 = value)
    (held : named.lookup name = some value ∨ (name, value) ∈ entries) :
    (entries.foldl (fun named entry => put entry.1 entry.2 named) named).lookup name =
      some value := by
  induction entries generalizing named with
  | nil =>
      rcases held with held | member
      · exact held
      · cases member
  | cons entry rest ih =>
      obtain ⟨here, later⟩ := List.forall_mem_cons.mp only
      refine ih (put entry.1 entry.2 named) later ?_
      rw [lookup_put]
      by_cases same : name = entry.1
      · left
        rw [if_pos same, here same.symm]
      · rw [if_neg same]
        rcases held with held | member
        · exact .inl held
        · rcases List.mem_cons.mp member with first | inRest
          · exact absurd (congrArg Prod.fst first) same
          · exact .inr inRest

theorem lookup_of_list {entries : List (String × α)} {name : String} {value : α}
    (only : ∀ entry ∈ entries, entry.1 = name → entry.2 = value)
    (member : (name, value) ∈ entries) : (ofList entries).lookup name = some value :=
  lookup_foldl_put entries [] name value only (.inr member)

end Named

namespace Display.Board

theorem constant_mark_injective {key other : String}
    (same : constantMark ++ key = constantMark ++ other) : key = other := by
  have chars := congrArg String.toList same
  rw [String.toList_append, String.toList_append] at chars
  exact String.toList_inj.mp (List.append_cancel_left chars)

theorem constant_slot?_eq_some {key : String} {value : Json} {slot : Slot}
    (made : constantSlot? key value = some slot) :
    slot = ⟨constantMark ++ key, .constant key⟩ := by
  unfold constantSlot? at made
  split at made
  · cases made
    rfl
  · cases made

theorem render_constant {constants : Json.Object} {key : String} {number : Json.Number}
    {constant : Decimal} (held : constants.get? key = some (.number number))
    (fits : number.toDecimal? = some constant) (shown : Quote) :
    ((ofConstants constants).render shown).lookup (constantMark ++ key) =
      some (some (Currency.dollar.format constant.abs)) := by
  have read : (ofConstants constants).constant? key = some constant.abs := by
    unfold constant?
    rw [show (ofConstants constants).constants = constants from rfl, held]
    dsimp only
    rw [fits]
    rfl
  have entry : (key, Json.number number) ∈ constants.members := Named.mem_of_lookup held
  have slot : (⟨constantMark ++ key, .constant key⟩ : Slot) ∈ (ofConstants constants).slots :=
    List.mem_filterMap.mpr ⟨_, entry, rfl⟩
  apply Named.lookup_of_list
  · intro line member name
    obtain ⟨other, inSlots, same⟩ := List.mem_map.mp member
    obtain ⟨⟨otherKey, value⟩, _, made⟩ := List.mem_filterMap.mp inSlots
    rw [constant_slot?_eq_some made] at same
    rw [← same] at name ⊢
    rw [constant_mark_injective name]
    dsimp only [amount?]
    rw [read]
    rfl
  · refine List.mem_map.mpr ⟨_, slot, ?_⟩
    dsimp only [amount?]
    rw [read]
    rfl

end Display.Board

open Display in
theorem shown_constant_near_charged (strictness : Strictness) (draft : Draft) (rules : RuleSet)
    (checked : draft.check strictness = .ok rules)
    (undotted : ∀ entry ∈ rules.constants.members, '.' ∉ entry.1.toList) (key : String)
    (number : Json.Number) (held : rules.constants.get? key = some (.number number))
    (constant : Decimal) (fits : number.toDecimal? = some constant) (rule : Rule)
    (member : rule ∈ rules.registration)
    (body : rule.body = .ok (.field ("pricing" ++ "." ++ key) none)) (form : Form) (shown : Quote) :
    ∃ text amount,
      ((Board.ofConstants rules.constants).render shown).lookup ("pricing_" ++ key) =
        some (some text) ∧
      (rules.price form).registrationAmount? rule.name = some amount ∧
      amount.value = Decimal.rounded .awayFromZero 2 constant.value ∧
      (text = Currency.dollar.format amount.abs ↔
        InCents constant.value ∨ Currency.ShownAlike constant.value) := by
  have named := Draft.check_well_named strictness draft rules checked
  have read := @Environment.lookup_number "pricing" key (by decide) rules.constants undotted number held
  have parts : Path.ofString ("pricing" ++ "." ++ key) = "pricing" :: Path.ofString key := by
    rw [Path.of_string_dot, Path.of_string_undotted "pricing" (by decide)]
    rfl
  rw [fits] at read
  have bound := (Pricing.registration_reads_constants rules form (rules.price form).campers parts).trans read
  refine ⟨_, Pricing.toAmount constant, Board.render_constant held fits shown, ?_,
    Decimal.value_round_to .awayFromZero 2 constant, ?_⟩
  · rw [Pricing.price_registration_amount named form member, Pricing.amount_of_field body bound]
    rfl
  · rw [Currency.format_abs, Currency.format_abs, ← Currency.amount_text_to_amount]
    constructor
    · intro same
      have chars := congrArg String.toList same
      rw [String.toList_append, String.toList_append] at chars
      exact String.toList_inj.mp (List.append_cancel_left chars)
    · exact congrArg _

def constantFeeDraft (fee : Json.Number) : Draft :=
  { camper := []
    registration := [⟨"total", none, .formula (.field "pricing.fee" none)⟩]
    constants := Json.Object.empty.insert "fee" (.number fee)
    total := none }

def emptyForm : Form := ⟨[], .empty⟩

def halfDollar : Json.Number := .binary ⟨false, twoTo 52, -53, by decide⟩

def eighthOfDollar : Json.Number := .binary ⟨false, twoTo 52, -55, by decide⟩

open Display in
theorem shown_constant_near_charged_half :
    ∃ rules text amount, (constantFeeDraft halfDollar).check .lenient = .ok rules ∧
      ((Board.ofConstants rules.constants).render .empty).lookup "pricing_fee" = some (some text) ∧
      (rules.price emptyForm).registrationAmount? "total" = some amount ∧
      text = Currency.dollar.format amount.abs := by
  obtain ⟨text, amount, slot, charged, _, alike⟩ := shown_constant_near_charged .lenient
    (constantFeeDraft halfDollar) _ rfl (by decide +kernel) "fee" halfDollar rfl
    ⟨false, 5, 1, by decide, by decide⟩ (by decide +kernel) _ (.head _) rfl emptyForm .empty
  exact ⟨_, text, amount, rfl, slot, charged, alike.mpr (.inl (in_cents_short (by decide)))⟩

open Display in
theorem shown_half_cent_differs :
    ∃ rules amount, (constantFeeDraft eighthOfDollar).check .lenient = .ok rules ∧
      eighthOfDollar.toDecimal? = some ⟨false, 125, 3, by decide, by decide⟩ ∧
      ((Board.ofConstants rules.constants).render .empty).lookup "pricing_fee" = some (some "$0.12") ∧
      (rules.price emptyForm).registrationAmount? "total" = some amount ∧
      Currency.dollar.format amount.abs = "$0.13" := by
  refine ⟨_, ⟨false, 13, 2, by decide, by decide⟩, rfl, ?_, ?_, ?_, ?_⟩
  · decide +kernel
  · decide +kernel
  · decide +kernel
  · decide +kernel

end Tariff
