import Tariff.RuleSet.Basic

set_option autoImplicit false

namespace Tariff

structure RuleSet.WellNamed (set : RuleSet) : Prop where
  distinct : ∀ scope, ((set.rules scope).map (·.name)).Nodup
  undotted : ∀ scope, ∀ rule ∈ set.rules scope, '.' ∉ rule.name.toList

namespace Draft

theorem check_names_undotted (scope : Scope) (seen : List String) (drafts : List RuleDraft)
    (passed : checkNames scope seen drafts = .ok ()) :
    ∀ draft ∈ drafts, '.' ∉ draft.name.toList := by
  induction drafts generalizing seen with
  | nil => intro draft member; cases member
  | cons first rest ih =>
      unfold checkNames at passed
      split at passed
      · cases passed
      · split at passed
        · cases passed
        · rename_i undotted
          split at passed
          · cases passed
          · intro draft member
            rcases List.mem_cons.mp member with same | later
            · exact same ▸ undotted
            · exact ih (first.name :: seen) passed draft later

-- The names of the rest are apart from each other and from all names seen before them.
theorem check_names_distinct (scope : Scope) (seen : List String) (drafts : List RuleDraft)
    (passed : checkNames scope seen drafts = .ok ()) :
    (drafts.map (·.name)).Nodup ∧ ∀ name ∈ seen, name ∉ drafts.map (·.name) := by
  induction drafts generalizing seen with
  | nil => exact ⟨List.nodup_nil, by intro name member absent; cases absent⟩
  | cons first rest ih =>
      unfold checkNames at passed
      split at passed
      · cases passed
      · split at passed
        · cases passed
        · split at passed
          · cases passed
          · rename_i unseen
            obtain ⟨distinct, apart⟩ := ih (first.name :: seen) passed
            refine ⟨List.nodup_cons.mpr ⟨apart first.name List.mem_cons_self, distinct⟩, ?_⟩
            intro name member found
            rcases List.mem_cons.mp found with same | later
            · subst same
              exact unseen member
            · exact apart name (List.mem_cons_of_mem _ member) later

theorem checked_then {α β : Type} (checked : Except RuleSet.Error α)
    (next : α → Except RuleSet.Error β) (result : β) (passed : checked >>= next = .ok result) :
    ∃ value, checked = .ok value ∧ next value = .ok result := by
  cases checked with
  | error error => cases passed
  | ok value => exact ⟨value, rfl, passed⟩

theorem check_rules_cons (strictness : Strictness) (scope : Scope) (camperRules : List String)
    (first : RuleDraft) (rest : List RuleDraft) (rules : List Rule)
    (passed : checkRules strictness scope camperRules (first :: rest) = .ok rules) :
    ∃ others, checkRules strictness scope camperRules rest = .ok others ∧
      rules = ⟨first.name, first.label, first.body scope camperRules⟩ :: others := by
  cases strictness with
  | lenient =>
      obtain ⟨others, tail, made⟩ := checked_then _ _ _ passed
      cases made
      exact ⟨others, tail, rfl⟩
  | strict =>
      unfold checkRules at passed
      cases body : first.body scope camperRules with
      | error defect =>
          rw [body] at passed
          cases passed
      | ok formula =>
          rw [body] at passed
          obtain ⟨others, tail, made⟩ := checked_then _ _ _ passed
          cases made
          exact ⟨others, tail, rfl⟩

theorem check_rules_names (strictness : Strictness) (scope : Scope) (camperRules : List String)
    (drafts : List RuleDraft) (rules : List Rule)
    (passed : checkRules strictness scope camperRules drafts = .ok rules) :
    rules.map (·.name) = drafts.map (·.name) := by
  induction drafts generalizing rules with
  | nil => cases passed; rfl
  | cons first rest ih =>
      obtain ⟨others, tail, made⟩ :=
        check_rules_cons strictness scope camperRules first rest rules passed
      subst made
      exact congrArg (first.name :: ·) (ih others tail)

theorem check_parts (strictness : Strictness) (draft : Draft) (set : RuleSet)
    (passed : draft.check strictness = .ok set) :
    checkNames .camper [] draft.camper = .ok () ∧
      checkNames .registration [] draft.registration = .ok () ∧
      checkRules strictness .camper (draft.camper.map (·.name)) draft.camper = .ok set.camper ∧
      checkRules strictness .registration (draft.camper.map (·.name)) draft.registration =
        .ok set.registration := by
  obtain ⟨_, camperNames, passed⟩ := checked_then _ _ _ passed
  obtain ⟨_, registrationNames, passed⟩ := checked_then _ _ _ passed
  obtain ⟨camper, camperRules, passed⟩ := checked_then _ _ _ passed
  obtain ⟨registration, registrationRules, passed⟩ := checked_then _ _ _ passed
  cases passed
  exact ⟨camperNames, registrationNames, camperRules, registrationRules⟩

theorem undotted_names (drafts : List RuleDraft) (rules : List Rule)
    (names : rules.map (·.name) = drafts.map (·.name))
    (undotted : ∀ draft ∈ drafts, '.' ∉ draft.name.toList) :
    ∀ rule ∈ rules, '.' ∉ rule.name.toList := by
  intro rule member
  have named : rule.name ∈ drafts.map (·.name) := names ▸ List.mem_map_of_mem member
  obtain ⟨draft, drafted, same⟩ := List.mem_map.mp named
  exact same ▸ undotted draft drafted

theorem check_well_named (strictness : Strictness) (draft : Draft) (set : RuleSet)
    (passed : draft.check strictness = .ok set) : set.WellNamed := by
  obtain ⟨camperNames, registrationNames, camperRules, registrationRules⟩ :=
    check_parts strictness draft set passed
  have camper := check_rules_names _ _ _ _ _ camperRules
  have registration := check_rules_names _ _ _ _ _ registrationRules
  refine ⟨?_, ?_⟩
  · intro scope
    cases scope with
    | camper => exact camper ▸ (check_names_distinct _ _ _ camperNames).1
    | registration => exact registration ▸ (check_names_distinct _ _ _ registrationNames).1
  · intro scope
    cases scope with
    | camper => exact undotted_names _ _ camper (check_names_undotted _ _ _ camperNames)
    | registration =>
        exact undotted_names _ _ registration (check_names_undotted _ _ _ registrationNames)

end Draft

end Tariff
