import Tariff.Pricing
import Tariff.Proofs.RuleSet.Rendered

set_option autoImplicit false

namespace Tariff

-- What is said of a result is decided by computing it.
instance decidableOk {ε α : Type} (result : Except ε α) (good : α → Prop) [DecidablePred good] :
    Decidable (∃ value, result = .ok value ∧ good value) :=
  match result with
  | .ok value => decidable_of_iff (good value) (by simp)
  | .error _ => .isFalse (by simp)

namespace Pricing

theorem amount_of_reread {rule : Rule} {formula : Formula} (body : rule.body = .ok formula)
    (legible : Script.Legible formula) (environment : Environment) :
    amountOf environment rule.reread = amountOf environment rule := by
  have again : rule.reread.body = .ok formula.reread := by
    rw [Rule.reread, body]
    rfl
  rw [amountOf, amountOf, again, body]
  dsimp only
  rw [Formula.evaluate_reread environment formula legible]

theorem registration_environment_reread (set : RuleSet) (form : Form) (campers : List Amounts) :
    registrationEnvironment set.reread form campers = registrationEnvironment set form campers := by
  rw [registrationEnvironment, registrationEnvironment, bindSums, bindSums]
  exact List.foldl_map

section

variable {set : RuleSet} (legible : set.IsLegible)

include legible

theorem price_rules_reread (scope : Scope) (camper : Option Nat) (environment : Environment)
    (failures : List RuleFailure) :
    priceRules scope camper environment ((set.rules scope).map Rule.reread) failures =
      priceRules scope camper environment (set.rules scope) failures := by
  rw [priceRules, priceRules, List.foldl_map]
  apply List.foldl_ext
  intro sheet rule member
  obtain ⟨_, formula, body, isLegible⟩ := legible.rules scope rule member
  rw [Sheet.enter, Sheet.enter, amount_of_reread body isLegible environment]
  rfl

theorem price_campers_reread (form : Form) (campers : List Camper) (index : Nat)
    (failures : List RuleFailure) :
    priceCampers set.reread form index failures campers =
      priceCampers set form index failures campers := by
  induction campers generalizing index failures with
  | nil => rfl
  | cons camper rest ih =>
      have own : priceRules .camper (some index) (camperEnvironment set.reread form camper)
          set.reread.camper failures =
        priceRules .camper (some index) (camperEnvironment set form camper) set.camper failures :=
        price_rules_reread legible .camper (some index) (camperEnvironment set form camper) failures
      rw [priceCampers, priceCampers, own]
      dsimp only
      rw [ih]

theorem reread_prices (form : Form) : set.reread.priceDetailed form = set.priceDetailed form := by
  have registration (campers : List Amounts) (failures : List RuleFailure) :
      priceRules .registration none (registrationEnvironment set.reread form campers)
          set.reread.registration failures =
        priceRules .registration none (registrationEnvironment set form campers)
          set.registration failures := by
    rw [registration_environment_reread]
    exact price_rules_reread legible .registration none _ failures
  rw [RuleSet.priceDetailed, RuleSet.priceDetailed, price_campers_reread legible]
  dsimp only
  rw [registration]
  rfl

end

end Pricing

theorem rendered_rules_price_alike (text : String) (script : Script) (set : RuleSet)
    (read : Script.ofString text = .ok script) (checked : script.toDraft.check .lenient = .ok set)
    (noDefects : set.defects = []) (sayable : set.Sayable) :
    ∃ again twin, Script.ofString set.render = .ok again ∧
      again.toDraft.check .lenient = .ok twin ∧
      (∀ scope, (twin.rules scope).map (·.name) = (set.rules scope).map (·.name)) ∧
      twin.total = set.total ∧ ∀ form, twin.priceDetailed form = set.priceDetailed form := by
  have isSound := Script.of_string_is_sound read
  have priced := RuleSet.priced_of_defects noDefects
  have legible := isSound.legible checked priced sayable
  refine ⟨_, set.reread, legible.read, isSound.checked_again checked priced, fun scope => ?_, rfl,
    Pricing.reread_prices legible⟩
  cases scope with
  | camper => exact List.map_map
  | registration => exact List.map_map

-- A script with escapes, with constants out of order and without parentheses.
def familyText : String :=
  "pricing night = 12.50\npricing motto = \"a \\\"b\\\"\"\n" ++
  "registration due (total): sum(fee) + camper_count * 0.5\n" ++
  "camper fee \"Fee \\\"A\\\"\": if not camper.age >= 6 or camper.code in [\"y\\\\d\"] " ++
  "then -camper.rate * 2 else min(pricing.night, camper.rate ?? 1)\n"

theorem rendered_rules_price_alike_family :
    ∃ script set again twin, Script.ofString familyText = .ok script ∧
      script.toDraft.check .lenient = .ok set ∧ Script.ofString set.render = .ok again ∧
      again.toDraft.check .lenient = .ok twin ∧
      ∀ form, twin.priceDetailed form = set.priceDetailed form := by
  have held : ∃ script, Script.ofString familyText = .ok script ∧
      ∃ set, script.toDraft.check .lenient = .ok set ∧ set.defects = [] ∧ set.Sayable := by
    decide +kernel
  obtain ⟨script, read, set, checked, noDefects, sayable⟩ := held
  obtain ⟨again, twin, readAgain, checkedAgain, _, _, prices⟩ :=
    rendered_rules_price_alike familyText script set read checked noDefects sayable
  exact ⟨script, set, again, twin, read, checked, readAgain, checkedAgain, prices⟩

def IsUnreadable (text : String) : Prop :=
  ∃ script, Script.ofString text = .ok script ∧
    ∃ set, script.toDraft.check .lenient = .ok set ∧ set.defects = [] ∧
      (Script.ofString set.render).isOk = false

-- A quote in a literal, and a constant with an exponent: no script says either as it is written.
def quotingText : String := "camper fee: if camper.code == \"a\\\"b\" then 1 else 2\n"

def tinyText : String := "pricing night = 0.000001\n"

theorem rendered_rules_may_not_be_read : IsUnreadable quotingText ∧ IsUnreadable tinyText := by
  unfold IsUnreadable
  decide +kernel

end Tariff
