import Tariff.Proofs.Pricing.Sheet
import Tariff.Proofs.RuleSet.Names

set_option autoImplicit false

namespace Tariff

def Amounts.missing (amounts : Amounts) : List String :=
  amounts.filterMap fun (rule, amount) => if amount.isNone then some rule else none

-- The places of a quote without an amount, camper by camper and then the registration.
def Quote.missing (quote : Quote) : List (Scope × Option Nat × String) :=
  (quote.campers.zipIdx.flatMap fun (amounts, index) =>
      amounts.missing.map fun rule => (.camper, some index, rule)) ++
    quote.registration.missing.map fun rule => (.registration, none, rule)

def RuleFailure.place (failure : RuleFailure) : Scope × Option Nat × String :=
  (failure.scope, failure.camper, failure.rule)

namespace Pricing

theorem failures_missing (scope : Scope) (camper : Option Nat) (environment : Environment)
    (rules : List Rule) :
    (rules.filterMap (failureOf? scope camper environment)).map RuleFailure.place =
      (Amounts.missing (rules.map (lineOf environment))).map fun rule => (scope, camper, rule) := by
  induction rules with
  | nil => rfl
  | cons rule rest ih =>
      unfold Amounts.missing at ih ⊢
      cases priced : amountOf environment rule with
      | ok amount =>
          have noFailure : failureOf? scope camper environment rule = none := by
            rw [failureOf?, priced]
          have present : (lineOf environment rule).2 = some amount := by
            rw [lineOf, priced]
            rfl
          simpa [noFailure, present] using ih
      | error cause =>
          have failed : failureOf? scope camper environment rule =
              some ⟨scope, camper, rule.name, cause⟩ := by
            rw [failureOf?, priced]
          have absent : lineOf environment rule = (rule.name, none) := by
            rw [lineOf, priced]
            rfl
          simpa [failed, absent, RuleFailure.place] using ih

theorem missing_nil_iff (amounts : Amounts) :
    amounts.missing = [] ↔ amounts.all (fun entry => entry.2.isSome) = true := by
  induction amounts with
  | nil => simp [Amounts.missing]
  | cons entry rest ih =>
      obtain ⟨rule, amount⟩ := entry
      unfold Amounts.missing at ih ⊢
      cases amount with
      | none => simp
      | some amount => simpa using ih

theorem campers_missing_nil_iff (campers : List Amounts) (first : Nat) :
    (campers.zipIdx first).flatMap (fun (amounts, index) =>
        amounts.missing.map fun rule => (Scope.camper, some index, rule)) = [] ↔
      campers.all (fun amounts => amounts.all fun entry => entry.2.isSome) = true := by
  induction campers generalizing first with
  | nil => simp
  | cons amounts rest ih =>
      rw [List.zipIdx_cons, List.flatMap_cons, List.append_eq_nil_iff, List.map_eq_nil_iff,
        missing_nil_iff, ih, List.all_cons, Bool.and_eq_true]

theorem missing_nil_iff_complete (quote : Quote) :
    quote.missing = [] ↔ quote.isComplete = true := by
  rw [Quote.missing, List.append_eq_nil_iff, campers_missing_nil_iff, List.map_eq_nil_iff,
    missing_nil_iff, Quote.isComplete, List.all_append, Bool.and_eq_true, List.all_cons,
    List.all_nil, Bool.and_true]

def camperAmounts (rules : RuleSet) (form : Form) (camper : Camper) : Amounts :=
  rules.camper.map (lineOf (camperEnvironment rules form camper))

def camperFailures (rules : RuleSet) (form : Form) (index : Nat) (camper : Camper) :
    List RuleFailure :=
  rules.camper.filterMap
    (failureOf? .camper (some index) (camperEnvironment rules form camper))

theorem price_campers_distinct (rules : RuleSet) (form : Form) (index : Nat)
    (failures : List RuleFailure) (campers : List Camper)
    (distinct : (rules.camper.map (·.name)).Nodup) :
    priceCampers rules form index failures campers =
      (campers.map (camperAmounts rules form),
        failures ++ (campers.zipIdx index).flatMap fun (camper, index) =>
          camperFailures rules form index camper) := by
  induction campers generalizing index failures with
  | nil => simp [priceCampers]
  | cons camper rest ih =>
      rw [priceCampers, price_rules_distinct _ _ _ _ _ distinct]
      dsimp only
      rw [ih]
      simp [camperAmounts, camperFailures]

-- The index of the first camper is free, since the recursion moves it on.
theorem camper_failures_missing (rules : RuleSet) (form : Form) (campers : List Camper)
    (first : Nat) :
    ((campers.zipIdx first).flatMap fun (camper, index) =>
        camperFailures rules form index camper).map RuleFailure.place =
      ((campers.map (camperAmounts rules form)).zipIdx first).flatMap fun (amounts, index) =>
        amounts.missing.map fun rule => (.camper, some index, rule) := by
  induction campers generalizing first with
  | nil => rfl
  | cons camper rest ih =>
      have here : (camperFailures rules form first camper).map RuleFailure.place =
          (camperAmounts rules form camper).missing.map fun rule => (.camper, some first, rule) :=
        failures_missing .camper (some first) (camperEnvironment rules form camper) rules.camper
      rw [List.zipIdx_cons, List.flatMap_cons, List.map_append, ih, here, List.map_cons,
        List.zipIdx_cons, List.flatMap_cons]

theorem price_detailed_lines (rules : RuleSet) (form : Form) (named : rules.WellNamed) :
    let campers := form.campers.map (camperAmounts rules form)
    let environment := registrationEnvironment rules form campers
    let registration : Amounts := rules.registration.map (lineOf environment)
    rules.priceDetailed form =
      { quote := ⟨campers, registration, (registration.get? rules.total).getD .zero⟩
        failures :=
          (form.campers.zipIdx.flatMap fun (camper, index) =>
              camperFailures rules form index camper) ++
            rules.registration.filterMap (failureOf? .registration none environment) } := by
  intro campers environment registration
  have camperNames : (rules.camper.map (·.name)).Nodup := named.distinct .camper
  have registrationNames : (rules.registration.map (·.name)).Nodup := named.distinct .registration
  unfold RuleSet.priceDetailed
  rw [price_campers_distinct rules form 0 [] form.campers camperNames]
  dsimp only
  rw [price_rules_distinct _ _ _ _ _ registrationNames]
  rfl

theorem camper_amounts_names (rules : RuleSet) (form : Form) (camper : Camper) :
    (camperAmounts rules form camper).map (·.1) = rules.camper.map (·.name) := by
  rw [camperAmounts, List.map_map]
  rfl

end Pricing

open Pricing in
theorem report_accounts_for_every_rule (strictness : Strictness) (draft : Draft) (rules : RuleSet)
    (checked : draft.check strictness = .ok rules) (form : Form) :
    let report := rules.priceDetailed form
    report.quote.campers = form.campers.map (camperAmounts rules form) ∧
      (∀ amounts ∈ report.quote.campers, amounts.map (·.1) = rules.camper.map (·.name)) ∧
      report.quote.registration.map (·.1) = rules.registration.map (·.name) ∧
      report.failures.map RuleFailure.place = report.quote.missing ∧
      (report.failures = [] ↔ report.quote.isComplete = true) ∧
      report.quote.total = (report.quote.registrationAmount? rules.total).getD .zero := by
  intro report
  have lines := price_detailed_lines rules form (Draft.check_well_named strictness draft rules checked)
  have campers : report.quote.campers = form.campers.map (camperAmounts rules form) :=
    congrArg (fun report : Report => report.quote.campers) lines
  have places : report.failures.map RuleFailure.place = report.quote.missing := by
    simp only [report, lines, List.map_append, camper_failures_missing, failures_missing,
      Quote.missing]
  refine ⟨campers, ?_, ?_, places, ?_, rfl⟩
  · intro amounts member
    rw [campers] at member
    obtain ⟨camper, _, same⟩ := List.mem_map.mp member
    rw [← same, camper_amounts_names]
  · simp only [report, lines, List.map_map]
    rfl
  · rw [← missing_nil_iff_complete, ← places, List.map_eq_nil_iff]

-- All three causes in one report: a rule without a formula, a division by zero, and a text.
def unevenDraft : Draft :=
  { camper :=
      [⟨"lunch", none, .missing⟩,
        ⟨"share", none, .formula (.arithmetic .divide
          [.literal (.number .one), .field "camper.nights" none])⟩]
    registration :=
      [⟨"group", none, .formula (.field "registration.group" none)⟩,
        ⟨"total", none, .formula (.field "campers.lunch" none)⟩]
    constants := .empty
    total := none }

def unevenForm : Form :=
  { campers := [Json.Object.empty.insert "nights" (.number (.whole 2 (by decide))), .empty]
    fields := Json.Object.empty.insert "group" (.string "owls") }

theorem report_accounts_for_three_causes :
    ∃ rules, unevenDraft.check .lenient = .ok rules ∧
      (rules.priceDetailed unevenForm).failures.map RuleFailure.place =
        (rules.priceDetailed unevenForm).quote.missing ∧
      (rules.priceDetailed unevenForm).quote.missing =
        [(.camper, some 0, "lunch"), (.camper, some 1, "lunch"), (.camper, some 1, "share"),
          (.registration, none, "group"), (.registration, none, "total")] := by
  refine ⟨_, rfl, ?_, ?_⟩
  · exact (report_accounts_for_every_rule .lenient unevenDraft _ rfl unevenForm).2.2.2.1
  · rfl

end Tariff
