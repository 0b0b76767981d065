import Tariff.Proofs.Formula.Occurrence
import Tariff.Proofs.RuleSet.Drafted
import Tariff.Proofs.RuleSet.Reach

set_option autoImplicit false

namespace Tariff

namespace Draft

def unlessDefective {α : Type} (defects : List RuleSet.DefectiveRule) (made : α) :
    Except RuleSet.Error α :=
  match defects with
  | [] => .ok made
  | first :: _ => .error (.defective first)

theorem unless_defective_map {α β : Type} (defects : List RuleSet.DefectiveRule) (made : α)
    (build : α → β) :
    (do
      let made ← unlessDefective defects made
      return build made) = unlessDefective defects (build made) := by
  cases defects <;> rfl

theorem unless_defective_append {α β γ : Type} (before behind : List RuleSet.DefectiveRule) (first : α)
    (second : β) (build : α → β → γ) :
    (do
      let first ← unlessDefective before first
      let second ← unlessDefective behind second
      return build first second) = unlessDefective (before ++ behind) (build first second) := by
  cases before with
  | nil => exact unless_defective_map behind second (build first)
  | cons defect rest => rfl

theorem check_rules_strict (scope : Scope) (camperRules : List String) (drafts : List RuleDraft) :
    checkRules .strict scope camperRules drafts =
      unlessDefective (RuleSet.defectsOf scope (drafts.map (RuleDraft.checked scope camperRules)))
        (drafts.map (RuleDraft.checked scope camperRules)) := by
  induction drafts with
  | nil => rfl
  | cons draft rest ih =>
      unfold checkRules
      rw [List.map_cons, RuleDraft.checked]
      cases draft.body scope camperRules with
      | error defect => rfl
      | ok formula =>
          dsimp only
          rw [ih]
          exact unless_defective_map _ _ (Rule.mk draft.name draft.label (.ok formula) :: ·)

theorem check_strict (draft : Draft) :
    draft.check .strict =
      match draft.check .lenient with
      | .error error => .error error
      | .ok set => unlessDefective set.defects set := by
  cases camper : checkNames .camper [] draft.camper with
  | error error =>
      rw [check, check, camper]
      rfl
  | ok _ =>
      cases registration : checkNames .registration [] draft.registration with
      | error error =>
          rw [check, check, camper, registration]
          rfl
      | ok _ =>
          have names (scope : Scope) : checkNames scope [] (draft.drafts scope) = .ok () := by
            cases scope with
            | camper => exact camper
            | registration => exact registration
          rw [check_lenient names, check, camper, registration]
          dsimp only
          rw [check_rules_strict, check_rules_strict]
          exact unless_defective_append _ _ _ _ fun camper registration =>
            RuleSet.mk camper registration draft.constants (draft.total.getD defaultTotal)

end Draft

theorem strict_and_lenient_agree (draft : Draft) :
    (draft.check .strict =
        match draft.check .lenient with
        | .error error => .error error
        | .ok set => Draft.unlessDefective set.defects set) ∧
      ∀ strictness set, draft.check strictness = .ok set → ∀ scope, ∀ rule ∈ set.rules scope,
        ∀ formula, rule.body = .ok formula →
          ∀ path default, Formula.Occurs (.field path default) formula →
            Reach.Sees (set.camper.map (·.name)) scope path := by
  refine ⟨draft.check_strict, ?_⟩
  intro strictness set checked scope rule member formula made path default occurs
  exact draft.check_sees strictness set checked member made occurs.path_mem

-- A share of a sum that campers do not see, before a sum of an unknown rule.
def discounted : Formula :=
  .choose [(.field "camper.member" none, .field "pricing.reduced" none)]
    (some (.arithmetic .subtract [.field "pricing.full" none, .field "registration.discount" none]))

def faultyDraft : Draft :=
  { camper := [⟨"fee", none, .formula discounted⟩, ⟨"share", none, .formula (.sumOf "fee")⟩]
    registration := [⟨"total", none, .formula (.sumOf "fees")⟩, ⟨"rate", none, .missing⟩]
    constants := .empty
    total := none }

theorem strict_and_lenient_agree_faulty :
    ∃ set, faultyDraft.check .lenient = .ok set ∧
      set.defects =
        [⟨.camper, "share", .unreachableField .camper "campers.fee"⟩,
          ⟨.registration, "total", .unknownSum "fees"⟩, ⟨.registration, "rate", .missingFormula⟩] ∧
      faultyDraft.check .strict =
        .error (.defective ⟨.camper, "share", .unreachableField .camper "campers.fee"⟩) ∧
      ⟨"fee", none, .ok discounted⟩ ∈ set.rules .camper ∧
      Formula.Occurs (.field "registration.discount" none) discounted ∧
      Reach.Sees ["fee", "share"] .camper "registration.discount" := by
  have occurs : Formula.Occurs (.field "registration.discount" none) discounted :=
    .within (.tail _ (.tail _ (.head _))) (.within (.tail _ (.head _)) .whole)
  obtain ⟨strict, seen⟩ := strict_and_lenient_agree faultyDraft
  refine ⟨_, rfl, rfl, strict, .head _, occurs, ?_⟩
  exact seen .lenient _ rfl .camper _ (.head _) discounted rfl _ none occurs

end Tariff
