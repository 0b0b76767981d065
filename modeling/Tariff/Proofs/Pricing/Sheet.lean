import Tariff.Pricing

set_option autoImplicit false

namespace Tariff.Pricing

def lineOf (environment : Environment) (rule : Rule) : String × Option Decimal :=
  (rule.name, (amountOf environment rule).toOption)

def failureOf? (scope : Scope) (camper : Option Nat) (environment : Environment) (rule : Rule) :
    Option RuleFailure :=
  match amountOf environment rule with
  | .ok _ => none
  | .error cause => some ⟨scope, camper, rule.name, cause⟩

theorem amount_of_short {environment : Environment} {rule : Rule} {amount : Decimal}
    (priced : amountOf environment rule = .ok amount) : amount.scale ≤ 2 := by
  unfold amountOf at priced
  split at priced
  · cases priced
  · split at priced
    · cases priced
    · rename_i value _
      cases priced
      exact Decimal.round_to_scale .awayFromZero 2 value

section

variable (scope : Scope) (camper : Option Nat) (environment : Environment)

theorem enter_amounts (sheet : Sheet) (rule : Rule) :
    (sheet.enter scope camper environment rule).amounts =
      Named.put rule.name (amountOf environment rule).toOption sheet.amounts := by
  unfold Sheet.enter
  cases amountOf environment rule with
  | ok amount => rfl
  | error cause => rfl

theorem enter_failures (sheet : Sheet) (rule : Rule) :
    (sheet.enter scope camper environment rule).failures =
      sheet.failures ++ (failureOf? scope camper environment rule).toList := by
  unfold Sheet.enter failureOf?
  cases amountOf environment rule with
  | ok amount => exact (List.append_nil sheet.failures).symm
  | error cause => rfl

theorem enter_absent (sheet : Sheet) (rule : Rule)
    (absent : rule.name ∉ sheet.amounts.map (·.1)) :
    (sheet.enter scope camper environment rule).amounts =
      sheet.amounts ++ [lineOf environment rule] := by
  rw [enter_amounts, Named.put_absent rule.name _ sheet.amounts absent]
  rfl

-- The sheet may hold lines already, as long as none of them has the name of a rule to come.
theorem enter_all_distinct (rules : List Rule) (sheet : Sheet)
    (distinct : (sheet.amounts.map (·.1) ++ rules.map (·.name)).Nodup) :
    rules.foldl (Sheet.enter scope camper environment) sheet =
      ⟨sheet.amounts ++ rules.map (lineOf environment),
        sheet.failures ++ rules.filterMap (failureOf? scope camper environment)⟩ := by
  induction rules generalizing sheet with
  | nil => simp
  | cons rule rest ih =>
      have absent : rule.name ∉ sheet.amounts.map (·.1) := by
        intro member
        exact (List.nodup_append.mp distinct).2.2 rule.name member rule.name (by simp) rfl
      have amounts := enter_absent scope camper environment sheet rule absent
      have failures := enter_failures scope camper environment sheet rule
      have later : ((sheet.enter scope camper environment rule).amounts.map (·.1) ++
          rest.map (·.name)).Nodup := by
        rw [amounts]
        simpa [lineOf] using distinct
      rw [List.foldl_cons, ih _ later, amounts, failures]
      cases failed : failureOf? scope camper environment rule with
      | none => simp [failed]
      | some failure => simp [failed]

theorem price_rules_distinct (rules : List Rule) (failures : List RuleFailure)
    (distinct : (rules.map (·.name)).Nodup) :
    priceRules scope camper environment rules failures =
      ⟨rules.map (lineOf environment),
        failures ++ rules.filterMap (failureOf? scope camper environment)⟩ :=
  enter_all_distinct scope camper environment rules ⟨[], failures⟩ distinct

-- Names may repeat here: a line may be written over, and each that is left is the line of some rule.
theorem enter_all_lines (rules : List Rule) (sheet : Sheet) (line : String × Option Decimal)
    (listed : line ∈ (rules.foldl (Sheet.enter scope camper environment) sheet).amounts) :
    line ∈ sheet.amounts ∨ ∃ rule ∈ rules, line = lineOf environment rule := by
  induction rules generalizing sheet with
  | nil => exact .inl listed
  | cons rule rest ih =>
      rcases ih _ listed with written | ⟨later, member, same⟩
      · rw [enter_amounts] at written
        rcases Named.mem_put written with here | earlier
        · exact .inr ⟨rule, List.mem_cons_self, here⟩
        · exact .inl earlier
      · exact .inr ⟨later, List.mem_cons_of_mem _ member, same⟩

theorem price_rules_lines (rules : List Rule) (failures : List RuleFailure)
    (line : String × Option Decimal)
    (listed : line ∈ (priceRules scope camper environment rules failures).amounts) :
    ∃ rule ∈ rules, line = lineOf environment rule := by
  rcases enter_all_lines scope camper environment rules ⟨[], failures⟩ line listed with
    empty | source
  · cases empty
  · exact source

theorem line_of_amount {rule : Rule} {name : String} {amount : Decimal}
    (same : (name, some amount) = lineOf environment rule) :
    rule.name = name ∧ amountOf environment rule = .ok amount := by
  obtain ⟨named, priced⟩ := Prod.mk.inj same
  cases made : amountOf environment rule with
  | error cause => simp [made, Except.toOption] at priced
  | ok value =>
      rw [made] at priced
      cases priced
      exact ⟨named.symm, rfl⟩

theorem price_rules_short (rules : List Rule) (failures : List RuleFailure) :
    ∀ line ∈ (priceRules scope camper environment rules failures).amounts,
      ∀ amount ∈ line.2, amount.scale ≤ 2 := by
  intro line listed amount held
  obtain ⟨rule, _, same⟩ := price_rules_lines _ _ _ _ _ _ listed
  have own : (line.1, some amount) = lineOf environment rule := by rw [← same, ← held]
  exact amount_of_short (line_of_amount environment own).2

end

theorem price_campers_short (rules : RuleSet) (form : Form) (index : Nat)
    (failures : List RuleFailure) (campers : List Camper) :
    ∀ amounts ∈ (priceCampers rules form index failures campers).1,
      ∀ line ∈ amounts, ∀ amount ∈ line.2, amount.scale ≤ 2 := by
  induction campers generalizing index failures with
  | nil =>
      intro amounts listed
      cases listed
  | cons camper rest ih =>
      rw [priceCampers]
      exact List.forall_mem_cons.mpr ⟨price_rules_short _ _ _ _ _, ih _ _⟩

theorem registration_short (rules : RuleSet) (form : Form) :
    ∀ line ∈ (rules.price form).registration, ∀ amount ∈ line.2, amount.scale ≤ 2 :=
  price_rules_short _ _ _ _ _

theorem total_short (rules : RuleSet) (form : Form) : (rules.price form).total.scale ≤ 2 := by
  change (((rules.price form).registration.get? rules.total).getD .zero).scale ≤ 2
  cases found : (rules.price form).registration.get? rules.total with
  | none => exact Nat.zero_le 2
  | some amount =>
      have listed := Named.mem_of_lookup (Option.join_eq_some_iff.mp found)
      exact registration_short rules form _ listed amount rfl

end Tariff.Pricing
