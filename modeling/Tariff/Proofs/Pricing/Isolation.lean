import Tariff.Proofs.Pricing.Sum

set_option autoImplicit false

namespace Tariff

namespace Pricing

variable {rules others : RuleSet} (constants : rules.constants = others.constants)

include constants

theorem camper_amount_isolated (reaching : rules.Reaching) (form : Form) (camper : Camper)
    {rule twin : Rule} (member : rule ∈ rules.camper) (bodies : rule.body = twin.body) :
    amountOf (camperEnvironment rules form camper) rule =
      amountOf (camperEnvironment others form camper) twin := by
  refine amount_of_congr bodies ?_
  intro formula body path field
  exact camper_reads_alike constants (reaching .camper rule member formula body path field)
    (same_reads_alike rfl) (same_reads_alike rfl)

theorem sum_isolated (named : rules.WellNamed) (otherNamed : others.WellNamed)
    (reaching : rules.Reaching) (form : Form) {rule twin : Rule} (member : rule ∈ rules.camper)
    (twinMember : twin ∈ others.camper) (bodies : rule.body = twin.body) :
    sumOf? (form.campers.map (camperAmounts rules form)) rule.name =
      sumOf? (form.campers.map (camperAmounts others form)) twin.name := by
  rw [sum_of?_eq_add_all?, sum_of?_eq_add_all?, List.map_map, List.map_map]
  refine congrArg (addAll? .zero) (List.map_congr_left fun camper _ => ?_)
  calc (camperAmounts rules form camper).get? rule.name
      = (amountOf (camperEnvironment rules form camper) rule).toOption :=
        camper_amounts_get? named form camper member
    _ = (amountOf (camperEnvironment others form camper) twin).toOption := by
        rw [camper_amount_isolated constants reaching form camper member bodies]
    _ = (camperAmounts others form camper).get? twin.name :=
        (camper_amounts_get? otherNamed form camper twinMember).symm

theorem registration_amount_isolated (named : rules.WellNamed) (otherNamed : others.WellNamed)
    (reaching : rules.Reaching) (otherReaching : others.Reaching) (form : Form) {rule twin : Rule}
    (member : rule ∈ rules.registration) (twinMember : twin ∈ others.registration)
    {formula : Formula} (body : rule.body = .ok formula) (twinBody : twin.body = .ok formula)
    (summed : ∀ camperRule ∈ rules.camper, ∀ camperTwin ∈ others.camper,
      camperRule.name = camperTwin.name →
      Formula.sumRoot ++ "." ++ camperRule.name ∈ formula.fields →
      camperRule.body = camperTwin.body) :
    amountOf (registrationEnvironment rules form (form.campers.map (camperAmounts rules form))) rule =
      amountOf (registrationEnvironment others form (form.campers.map (camperAmounts others form)))
        twin := by
  refine amount_of_congr (body.trans twinBody.symm) ?_
  intro found foundBody path field
  have same : found = formula := Except.ok.inj (foundBody.symm.trans body)
  subst same
  have reaches := reaching .registration rule member found foundBody path field
  have otherReaches := otherReaching .registration twin twinMember found twinBody path field
  refine registration_reads_alike named otherNamed constants rfl reaches otherReaches
    (same_reads_alike rfl) ?_
  intro name isSum
  -- Both sets have a rule of this name, or the path could not be read in both.
  obtain ⟨camperRule, inRules, named'⟩ := List.mem_map.mp (reaches.sum_member isSum)
  obtain ⟨camperTwin, inOthers, twinNamed⟩ := List.mem_map.mp (otherReaches.sum_member isSum)
  have sums := sum_isolated constants named otherNamed reaching form inRules inOthers
    (summed camperRule inRules camperTwin inOthers (named'.trans twinNamed.symm)
      (by rw [named', ← isSum]; exact field))
  rw [named', twinNamed] at sums
  rw [sums]
  exact nearness_eq.rel_refl _

end Pricing

open Pricing in
theorem rules_are_isolated (strictness otherStrictness : Strictness) (draft otherDraft : Draft)
    (rules others : RuleSet) (checked : draft.check strictness = .ok rules)
    (otherChecked : otherDraft.check otherStrictness = .ok others)
    (constants : rules.constants = others.constants) (form : Form) :
    (∀ rule ∈ rules.camper, ∀ twin ∈ others.camper, ∀ formula,
        rule.body = .ok formula → twin.body = .ok formula →
        ∀ index, (rules.price form).camperAmount? index rule.name =
          (others.price form).camperAmount? index twin.name) ∧
      ∀ rule ∈ rules.registration, ∀ twin ∈ others.registration, ∀ formula,
        rule.body = .ok formula → twin.body = .ok formula →
        (∀ camperRule ∈ rules.camper, ∀ camperTwin ∈ others.camper,
          camperRule.name = camperTwin.name →
          Formula.sumRoot ++ "." ++ camperRule.name ∈ formula.fields →
          camperRule.body = camperTwin.body) →
        (rules.price form).registrationAmount? rule.name =
          (others.price form).registrationAmount? twin.name := by
  have named := Draft.check_well_named strictness draft rules checked
  have otherNamed := Draft.check_well_named otherStrictness otherDraft others otherChecked
  have reaching := Draft.check_reaching strictness draft rules checked
  have otherReaching := Draft.check_reaching otherStrictness otherDraft others otherChecked
  constructor
  · intro rule member twin twinMember formula body twinBody index
    rw [price_camper_amount named form index member,
      price_camper_amount otherNamed form index twinMember]
    refine congrArg _ (funext fun camper => ?_)
    rw [camper_amount_isolated constants reaching form camper member (body.trans twinBody.symm)]
  · intro rule member twin twinMember formula body twinBody summed
    rw [price_registration_amount named form member,
      price_registration_amount otherNamed form twinMember, price_campers named form,
      price_campers otherNamed form,
      registration_amount_isolated constants named otherNamed reaching otherReaching form member
        twinMember body twinBody summed]

-- The rules of `feeDraft` among others, none of which has an amount.
def crowdedDraft : Draft :=
  { feeDraft with
    camper :=
      [⟨"lunch", none, .missing⟩,
        ⟨"share", none, .formula (.arithmetic .divide
          [.literal (.number .one), .field "camper.nights" none])⟩] ++ feeDraft.camper
    registration := ⟨"lunches", none, .formula (.sumOf "lunch")⟩ :: feeDraft.registration }

theorem rules_are_isolated_in_crowd :
    ∃ rules others, feeDraft.check .lenient = .ok rules ∧ crowdedDraft.check .lenient = .ok others ∧
      (rules.price (feeForm ["0.10", "4"])).camperAmount? 1 "fee" =
        (others.price (feeForm ["0.10", "4"])).camperAmount? 1 "fee" ∧
      (rules.price (feeForm ["0.10", "4"])).registrationAmount? "total" =
        (others.price (feeForm ["0.10", "4"])).registrationAmount? "total" ∧
      (others.price (feeForm ["0.10", "4"])).registration.map (·.2.isSome) = [false, true] := by
  refine ⟨_, _, rfl, rfl, ?_⟩
  obtain ⟨campers, registration⟩ := rules_are_isolated .lenient .lenient feeDraft crowdedDraft _ _
    rfl rfl rfl (feeForm ["0.10", "4"])
  refine ⟨?_, ?_, by decide +kernel⟩
  · exact campers _ (.head _) _ (.tail _ (.tail _ (.head _))) _ rfl rfl 1
  · refine registration _ (.head _) _ (.tail _ (.head _)) _ rfl rfl ?_
    intro camperRule member camperTwin twinMember names _
    have isFee : camperRule = ⟨"fee", none, .ok (.field "camper.fee" none)⟩ :=
      List.mem_singleton.mp member
    subst isFee
    rcases List.mem_cons.mp twinMember with lunch | later
    · subst lunch
      exact absurd names (by decide)
    · rcases List.mem_cons.mp later with share | fee
      · subst share
        exact absurd names (by decide)
      · rw [List.mem_singleton.mp fee]
        rfl

end Tariff
