import Tariff.Script.Document
import Tariff.Proofs.RuleSet.Names

set_option autoImplicit false

namespace Tariff

namespace Draft

def drafts (draft : Draft) : Scope → List RuleDraft
  | .camper => draft.camper
  | .registration => draft.registration

theorem add_all_drafts (draft : Draft) (rules : List (Scope × RuleDraft)) (scope : Scope) :
    (draft.addAll rules).drafts scope =
      draft.drafts scope ++ (rules.filter fun rule => rule.1 == scope).map (·.2) := by
  unfold addAll
  induction rules generalizing draft with
  | nil => exact (List.append_nil _).symm
  | cons rule rest ih =>
      obtain ⟨own, first⟩ := rule
      rw [List.foldl_cons, ih]
      cases own <;> cases scope <;> simp [add, drafts]

theorem set_constants_eq (draft : Draft) (constants : Json.Object) :
    draft.setConstants constants =
      { draft with constants := draft.constants.insertAll constants.members } := by
  unfold setConstants Json.Object.insertAll
  induction constants.members generalizing draft with
  | nil => rfl
  | cons entry rest ih =>
      rw [List.foldl_cons, ih]
      rfl

theorem add_all_constants (draft : Draft) (rules : List (Scope × RuleDraft)) :
    (draft.addAll rules).constants = draft.constants := by
  unfold addAll
  induction rules generalizing draft with
  | nil => rfl
  | cons rule rest ih =>
      obtain ⟨own, first⟩ := rule
      rw [List.foldl_cons, ih]
      cases own <;> rfl

end Draft

def RuleDraft.checked (scope : Scope) (camperRules : List String) (draft : RuleDraft) : Rule :=
  ⟨draft.name, draft.label, draft.body scope camperRules⟩

namespace Draft

theorem check_names_congr (scope : Scope) (seen : List String) {drafts others : List RuleDraft}
    (names : drafts.map (·.name) = others.map (·.name)) :
    checkNames scope seen drafts = checkNames scope seen others := by
  induction drafts generalizing seen others with
  | nil =>
      cases others with
      | nil => rfl
      | cons other rest => cases names
  | cons draft rest ih =>
      cases others with
      | nil => cases names
      | cons other more =>
          obtain ⟨same, later⟩ := List.cons.inj names
          have same : draft.name = other.name := same
          rw [checkNames, checkNames, same, ih _ later]

theorem check_rules_lenient (scope : Scope) (camperRules : List String) (drafts : List RuleDraft) :
    checkRules .lenient scope camperRules drafts =
      .ok (drafts.map (RuleDraft.checked scope camperRules)) := by
  induction drafts with
  | nil => rfl
  | cons draft rest ih =>
      unfold checkRules
      rw [ih]
      rfl

theorem check_lenient {draft : Draft}
    (names : ∀ scope, checkNames scope [] (draft.drafts scope) = .ok ()) :
    draft.check .lenient = .ok
      ⟨draft.camper.map (RuleDraft.checked .camper (draft.camper.map (·.name))),
        draft.registration.map (RuleDraft.checked .registration (draft.camper.map (·.name))),
        draft.constants, draft.total.getD defaultTotal⟩ := by
  have camper : checkNames .camper [] draft.camper = .ok () := names .camper
  have registration : checkNames .registration [] draft.registration = .ok () :=
    names .registration
  rw [check, camper, registration]
  dsimp only
  rw [check_rules_lenient, check_rules_lenient]
  rfl

variable {draft : Draft} {set : RuleSet}

theorem lenient_names (checked : draft.check .lenient = .ok set) (scope : Scope) :
    checkNames scope [] (draft.drafts scope) = .ok () := by
  obtain ⟨camper, registration, _⟩ := check_parts .lenient draft set checked
  cases scope with
  | camper => exact camper
  | registration => exact registration

theorem lenient_rules (checked : draft.check .lenient = .ok set) (scope : Scope) :
    set.rules scope =
      (draft.drafts scope).map (RuleDraft.checked scope (draft.camper.map (·.name))) := by
  have made := checked.symm.trans (check_lenient (lenient_names checked))
  cases made
  cases scope <;> rfl

theorem lenient_rest (checked : draft.check .lenient = .ok set) :
    set.constants = draft.constants ∧ set.total = draft.total.getD defaultTotal := by
  have made := checked.symm.trans (check_lenient (lenient_names checked))
  cases made
  exact ⟨rfl, rfl⟩

theorem lenient_rule_names (checked : draft.check .lenient = .ok set) (scope : Scope) :
    (set.rules scope).map (·.name) = (draft.drafts scope).map (·.name) := by
  rw [lenient_rules checked, List.map_map]
  rfl

end Draft

namespace Script

theorem to_draft_drafts (script : Script) (scope : Scope) :
    script.toDraft.drafts scope = (script.rules.filter fun rule => rule.1 == scope).map (·.2) := by
  have added := Draft.empty.add_all_drafts script.rules scope
  rw [toDraft, Draft.set_constants_eq]
  cases scope <;> exact added

theorem mem_to_draft_drafts (script : Script) (scope : Scope) (draft : RuleDraft) :
    draft ∈ script.toDraft.drafts scope ↔ (scope, draft) ∈ script.rules := by
  rw [to_draft_drafts, List.mem_map]
  constructor
  · rintro ⟨⟨own, found⟩, member, same⟩
    obtain ⟨held, isScope⟩ := List.mem_filter.mp member
    rw [← same, ← eq_of_beq isScope]
    exact held
  · intro member
    exact ⟨(scope, draft), List.mem_filter.mpr ⟨member, beq_self_eq_true scope⟩, rfl⟩

theorem to_draft_constants (script : Script) : script.toDraft.constants = script.constants := by
  rw [toDraft, Draft.set_constants_eq, Draft.add_all_constants]
  exact script.constants.insert_all_empty

end Script

end Tariff
