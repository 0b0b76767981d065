import Tariff.Form
import Tariff.Formula.Evaluation
import Tariff.Quote
import Tariff.RuleSet.Basic

/-! Registration rules see the number of campers and, for each camper rule, the sum of its amounts; a
sum with an amount that is not available is not available either. -/

set_option autoImplicit false

namespace Tariff

inductive Unpriced where
  | defect (defect : Defect)
  | failure (failure : Failure)
deriving DecidableEq, Repr

structure RuleFailure where
  scope : Scope
  camper : Option Nat
  rule : String
  cause : Unpriced
deriving DecidableEq, Repr

namespace RuleFailure

def reason (failure : RuleFailure) : String :=
  match failure.cause with
  | .defect defect => defect.message failure.rule
  | .failure cause => cause.message

def render (failure : RuleFailure) : String :=
  match failure.camper with
  | some index =>
      "camper[" ++ toString index ++ "]." ++ failure.rule ++ ": " ++ failure.reason
  | none => "registration." ++ failure.rule ++ ": " ++ failure.reason

end RuleFailure

structure Report where
  quote : Quote
  failures : List RuleFailure

def Report.render (report : Report) : String :=
  "total: " ++ report.quote.total.render ++
    ", campers: " ++ toString report.quote.campers.length ++
    ", failures: [" ++ ", ".intercalate (report.failures.map RuleFailure.render) ++ "]"

namespace Pricing

def toAmount (value : Decimal) : Decimal := value.roundTo .awayFromZero 2

def amountOf (environment : Environment) (rule : Rule) : Except Unpriced Decimal :=
  match rule.body with
  | .error defect => .error (.defect defect)
  | .ok formula =>
      match (formula.evaluate environment).number with
      | .error failure => .error (.failure failure)
      | .ok value => .ok (toAmount value)

structure Sheet where
  amounts : Amounts
  failures : List RuleFailure

def Sheet.enter (scope : Scope) (camper : Option Nat) (environment : Environment) (sheet : Sheet)
    (rule : Rule) : Sheet :=
  match amountOf environment rule with
  | .ok amount => { sheet with amounts := Named.put rule.name (some amount) sheet.amounts }
  | .error cause =>
      { amounts := Named.put rule.name none sheet.amounts
        failures := sheet.failures ++ [⟨scope, camper, rule.name, cause⟩] }

def priceRules (scope : Scope) (camper : Option Nat) (environment : Environment)
    (rules : List Rule) (failures : List RuleFailure) : Sheet :=
  rules.foldl (Sheet.enter scope camper environment) ⟨[], failures⟩

def sumOf? (campers : List Amounts) (rule : String) : Option Decimal :=
  campers.foldlM (fun total amounts => (amounts.get? rule).bind total.add?) .zero

def sharedEnvironment (rules : RuleSet) (form : Form) : Environment :=
  (Environment.empty.bindObject "pricing" rules.constants).bindObject "registration" form.fields

def bindNumber (path : String) (number : Option Decimal) (environment : Environment) :
    Environment :=
  match number with
  | some value => environment.bind path (.number value)
  | none => environment.bindUnavailable path

def bindSums (campers : List Amounts) (rules : List Rule) (environment : Environment) :
    Environment :=
  rules.foldl (fun environment rule =>
    bindNumber (Formula.sumRoot ++ "." ++ rule.name) (sumOf? campers rule.name) environment)
    environment

def registrationEnvironment (rules : RuleSet) (form : Form) (campers : List Amounts) :
    Environment :=
  bindSums campers rules.camper
    (bindNumber "camper_count" (Decimal.ofNat? form.camperCount) (sharedEnvironment rules form))

def camperEnvironment (rules : RuleSet) (form : Form) (camper : Camper) : Environment :=
  (sharedEnvironment rules form).bindObject "camper" camper

def priceCampers (rules : RuleSet) (form : Form) (index : Nat) (failures : List RuleFailure) :
    List Camper → List Amounts × List RuleFailure
  | [] => ([], failures)
  | camper :: rest =>
      let sheet :=
        priceRules .camper (some index) (camperEnvironment rules form camper) rules.camper failures
      let (others, failures) := priceCampers rules form (index + 1) sheet.failures rest
      (sheet.amounts :: others, failures)

end Pricing

open Pricing in
-- The price of a form, with the reasons for what is not available. The total is zero while its rule
-- has no amount.
def RuleSet.priceDetailed (rules : RuleSet) (form : Form) : Report :=
  let (campers, failures) := priceCampers rules form 0 [] form.campers
  let overall :=
    priceRules .registration none (registrationEnvironment rules form campers) rules.registration
      failures
  { quote := ⟨campers, overall.amounts, (overall.amounts.get? rules.total).getD .zero⟩
    failures := overall.failures }

def RuleSet.price (rules : RuleSet) (form : Form) : Quote := (rules.priceDetailed form).quote

end Tariff
