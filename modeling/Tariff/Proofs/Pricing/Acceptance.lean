import Tariff.Proofs.Decimal.Value
import Tariff.Proofs.Pricing.Sheet
import Tariff.Submission

set_option autoImplicit false

namespace Tariff

namespace Pricing

theorem enter_all_named (scope : Scope) (camper : Option Nat) (environment : Environment)
    (rules : List Rule) (sheet : Sheet) (name : String)
    (named : (sheet.amounts.lookup name).isSome = true ∨ ∃ rule ∈ rules, rule.name = name) :
    ((rules.foldl (Sheet.enter scope camper environment) sheet).amounts.lookup name).isSome =
      true := by
  induction rules generalizing sheet with
  | nil =>
      rcases named with held | ⟨rule, member, _⟩
      · exact held
      · cases member
  | cons rule rest ih =>
      refine ih _ ?_
      rw [enter_amounts, Named.lookup_put]
      by_cases here : name = rule.name
      · rw [if_pos here]
        exact .inl rfl
      · rw [if_neg here]
        refine named.imp_right fun ⟨other, member, same⟩ => ?_
        rcases List.mem_cons.mp member with first | later
        · exact absurd (first ▸ same).symm here
        · exact ⟨other, later, same⟩

end Pricing

theorem Quote.incomplete_of_none {quote : Quote} {rule : String}
    (listed : (quote.registration.lookup rule).isSome = true)
    (absent : quote.registrationAmount? rule = none) : quote.isComplete = false := by
  obtain ⟨amount, found⟩ := Option.isSome_iff_exists.mp listed
  rw [registrationAmount?, Amounts.get?, found, Option.join_some] at absent
  have member : (rule, none) ∈ quote.registration := Named.mem_of_lookup (absent ▸ found)
  rw [isComplete, ← Bool.not_eq_true, List.all_append, Bool.and_eq_true]
  rintro ⟨_, complete⟩
  have all := List.all_eq_true.mp complete quote.registration (List.mem_singleton_self _)
  cases List.all_eq_true.mp all _ member

theorem RuleSet.price_lists_total (rules : RuleSet) (form : Form)
    (registered : ∃ rule ∈ rules.registration, rule.name = rules.total) :
    ((rules.price form).registration.lookup rules.total).isSome = true :=
  Pricing.enter_all_named _ _ _ rules.registration ⟨[], _⟩ rules.total (.inr registered)

theorem RuleSet.verify_eq_ok_iff (rules : RuleSet) (submission : Submission) (quote : Quote) :
    rules.verify submission = .ok quote ↔ quote = rules.price submission.form ∧
      (Pricing.toAmount submission.quote.total).value = quote.total.value := by
  unfold RuleSet.verify
  dsimp only
  by_cases same : (Pricing.toAmount submission.quote.total).same
      (rules.price submission.form).total = true
  · rw [if_pos same]
    rw [Decimal.same_iff] at same
    refine ⟨fun accepted => ?_, fun ⟨computed, _⟩ => by rw [computed]⟩
    cases accepted
    exact ⟨rfl, same⟩
  · rw [if_neg same]
    rw [Decimal.same_iff] at same
    refine ⟨(by intro accepted; cases accepted), fun ⟨computed, alike⟩ => ?_⟩
    rw [computed] at alike
    exact absurd alike same

theorem Pricing.total_rounded (rules : RuleSet) (form : Form) :
    toAmount (rules.price form).total = (rules.price form).total :=
  Decimal.round_to_short .awayFromZero 2 _ (total_short rules form)

theorem RuleSet.verify_priced (rules : RuleSet) (form : Form) :
    rules.verify ⟨form, rules.price form⟩ = .ok (rules.price form) :=
  (rules.verify_eq_ok_iff _ _).mpr ⟨rfl, congrArg Decimal.value (Pricing.total_rounded rules form)⟩

open Pricing in
theorem verified_total_is_priced_or_zero (rules : RuleSet)
    (registered : ∃ rule ∈ rules.registration, rule.name = rules.total)
    (submission : Submission) (quote : Quote) :
    rules.verify submission = .ok quote ↔
      quote = rules.price submission.form ∧
        ((∃ amount, quote.registrationAmount? rules.total = some amount ∧
            amount.value = (toAmount submission.quote.total).value) ∨
          (quote.registrationAmount? rules.total = none ∧ quote.isComplete = false ∧
            (toAmount submission.quote.total).value = 0)) := by
  rw [RuleSet.verify_eq_ok_iff]
  refine and_congr_right fun computed => ?_
  have total : quote.total = (quote.registrationAmount? rules.total).getD .zero := by
    rw [computed]
    rfl
  rw [total]
  cases found : quote.registrationAmount? rules.total with
  | some amount =>
      refine ⟨fun same => .inl ⟨amount, rfl, same.symm⟩, fun either => ?_⟩
      rcases either with ⟨other, held, same⟩ | ⟨absent, _⟩
      · cases held
        exact same.symm
      · cases absent
  | none =>
      have incomplete : quote.isComplete = false :=
        Quote.incomplete_of_none (computed ▸ rules.price_lists_total submission.form registered) found
      refine ⟨fun same => .inr ⟨rfl, incomplete, same.trans Decimal.value_zero⟩, fun either => ?_⟩
      rcases either with ⟨other, held, _⟩ | ⟨_, _, zero⟩
      · cases held
      · exact zero.trans Decimal.value_zero.symm

def nightsRules : RuleSet :=
  { camper := []
    registration := [⟨"total", none, .ok (.arithmetic .multiply
      [.literal (.number ⟨false, 100, 0, by decide, Nat.zero_le _⟩),
        .field "registration.nights" none])⟩]
    constants := .empty
    total := "total" }

def nightsSubmission (nights : Json) (total : Decimal) : Submission :=
  ⟨Form.empty.setField "nights" nights, { Quote.empty with total := total }⟩

theorem verified_total_is_priced_or_zero_rounded :
    let submission := nightsSubmission (.number (.whole 3 (by decide)))
      ⟨false, 300004, 3, by decide, by decide⟩
    (∃ rule ∈ nightsRules.registration, rule.name = nightsRules.total) ∧
      ∃ quote amount, nightsRules.verify submission = .ok quote ∧
        quote.registrationAmount? nightsRules.total = some amount ∧
        amount.value = (Pricing.toAmount submission.quote.total).value := by
  intro submission
  have registered : ∃ rule ∈ nightsRules.registration, rule.name = nightsRules.total :=
    ⟨_, List.mem_singleton_self _, rfl⟩
  have priced : (nightsRules.price submission.form).registrationAmount? nightsRules.total =
      some ⟨false, 300, 0, by decide, by decide⟩ := by decide +kernel
  have same : (⟨false, 300, 0, by decide, by decide⟩ : Decimal).value =
      (Pricing.toAmount submission.quote.total).value :=
    (Decimal.same_iff _ _).mp (by decide +kernel)
  refine ⟨registered, _, _, ?_, priced, same⟩
  exact (verified_total_is_priced_or_zero nightsRules registered submission _).mpr
    ⟨rfl, .inl ⟨_, priced, same⟩⟩

theorem unpriced_total_is_verified :
    (∃ rule ∈ nightsRules.registration, rule.name = nightsRules.total) ∧
      ∃ quote, nightsRules.verify (nightsSubmission (.string "two") .zero) = .ok quote ∧
        quote.registrationAmount? nightsRules.total = none :=
  ⟨⟨_, List.mem_singleton_self _, rfl⟩, _, rfl, by decide +kernel⟩

end Tariff
