import Tariff.Proofs.Pricing.Reading

set_option autoImplicit false

namespace Tariff

-- As many campers, and for each field of a rule the same reading in its place.
structure RuleSet.ReadsSame (rules : RuleSet) (form other : Form) : Prop where
  registration : ∀ scope, ∀ path ∈ rules.fields scope,
    (Environment.empty.bindObject "registration" form.fields).lookup path =
      (Environment.empty.bindObject "registration" other.fields).lookup path
  campers : List.Forall₂ (fun camper twin : Camper => ∀ path ∈ rules.fields .camper,
    (Environment.empty.bindObject "camper" camper).lookup path =
      (Environment.empty.bindObject "camper" twin).lookup path) form.campers other.campers

-- As many campers, and for each field of a rule readings in its place that no formula tells apart.
structure RuleSet.ReadsAlike (rules : RuleSet) (form other : Form) : Prop where
  registration : ∀ scope, ∀ path ∈ rules.fields scope,
    Formula.ReadsAlike False Eq (Environment.empty.bindObject "registration" form.fields)
      (Environment.empty.bindObject "registration" other.fields) path
  campers : List.Forall₂ (fun camper twin : Camper => ∀ path ∈ rules.fields .camper,
    Formula.ReadsAlike False Eq (Environment.empty.bindObject "camper" camper)
      (Environment.empty.bindObject "camper" twin) path) form.campers other.campers

theorem RuleSet.ReadsSame.alike {rules : RuleSet} {form other : Form}
    (same : rules.ReadsSame form other) : rules.ReadsAlike form other where
  registration scope path referenced := Pricing.same_reads_alike (same.registration scope path referenced)
  campers := same.campers.imp fun _ _ own path referenced => Pricing.same_reads_alike (own path referenced)

namespace Pricing

variable {rules : RuleSet} {form other : Form}

theorem camper_amount_alike (reaching : rules.Reaching) (alike : rules.ReadsAlike form other)
    {camper twin : Camper}
    (own : ∀ path ∈ rules.fields .camper,
      Formula.ReadsAlike False Eq (Environment.empty.bindObject "camper" camper)
        (Environment.empty.bindObject "camper" twin) path)
    {rule : Rule} (member : rule ∈ rules.camper) :
    amountOf (camperEnvironment rules form camper) rule =
      amountOf (camperEnvironment rules other twin) rule := by
  refine amount_of_congr rfl ?_
  intro formula body path field
  have referenced : path ∈ rules.fields .camper :=
    (rules.mem_fields .camper path).mpr ⟨rule, member, formula, body, field⟩
  exact camper_reads_alike rfl (reaching .camper rule member formula body path field)
    (alike.registration .camper path referenced) (own path referenced)

theorem registration_amount_alike (named : rules.WellNamed) (reaching : rules.Reaching)
    (alike : rules.ReadsAlike form other) (campers : List Amounts) {rule : Rule}
    (member : rule ∈ rules.registration) :
    amountOf (registrationEnvironment rules form campers) rule =
      amountOf (registrationEnvironment rules other campers) rule := by
  refine amount_of_congr rfl ?_
  intro formula body path field
  have referenced : path ∈ rules.fields .registration :=
    (rules.mem_fields .registration path).mpr ⟨rule, member, formula, body, field⟩
  have reaches := reaching .registration rule member formula body path field
  exact registration_reads_alike named named rfl alike.campers.length_eq reaches reaches
    (alike.registration .registration path referenced) fun _ _ => nearness_eq.rel_refl _

theorem lines_same {environment twin : Environment} {rules : List Rule}
    (same : ∀ rule ∈ rules, amountOf environment rule = amountOf twin rule) :
    rules.map (lineOf environment) = rules.map (lineOf twin) := by
  apply List.map_congr_left
  intro rule member
  rw [lineOf, lineOf, same rule member]

theorem failures_same (scope : Scope) (camper : Option Nat) {environment twin : Environment}
    {rules : List Rule} (same : ∀ rule ∈ rules, amountOf environment rule = amountOf twin rule) :
    rules.filterMap (failureOf? scope camper environment) =
      rules.filterMap (failureOf? scope camper twin) := by
  apply List.filterMap_congr
  intro rule member
  rw [failureOf?, failureOf?, same rule member]

theorem campers_alike (reaching : rules.Reaching) (alike : rules.ReadsAlike form other)
    {campers twins : List Camper}
    (own : List.Forall₂ (fun camper twin : Camper => ∀ path ∈ rules.fields .camper,
      Formula.ReadsAlike False Eq (Environment.empty.bindObject "camper" camper)
        (Environment.empty.bindObject "camper" twin) path) campers twins) (index : Nat) :
    campers.map (camperAmounts rules form) = twins.map (camperAmounts rules other) ∧
      ((campers.zipIdx index).flatMap fun (camper, index) =>
          camperFailures rules form index camper) =
        (twins.zipIdx index).flatMap fun (camper, index) =>
          camperFailures rules other index camper := by
  induction own generalizing index with
  | nil => exact ⟨rfl, rfl⟩
  | @cons camper twin rest others own _ ih =>
      have amounts (rule : Rule) (member : rule ∈ rules.camper) :=
        camper_amount_alike reaching alike own member
      have here : camperAmounts rules form camper = camperAmounts rules other twin :=
        lines_same amounts
      have failed : camperFailures rules form index camper =
          camperFailures rules other index twin := failures_same .camper (some index) amounts
      obtain ⟨restAmounts, restFailures⟩ := ih (index + 1)
      constructor
      · rw [List.map_cons, List.map_cons, here, restAmounts]
      · rw [List.zipIdx_cons, List.zipIdx_cons, List.flatMap_cons, List.flatMap_cons]
        dsimp only
        rw [failed, restFailures]

theorem price_detailed_alike (named : rules.WellNamed) (reaching : rules.Reaching)
    (alike : rules.ReadsAlike form other) : rules.priceDetailed form = rules.priceDetailed other := by
  obtain ⟨amounts, failures⟩ := campers_alike reaching alike alike.campers 0
  have registration (rule : Rule) (member : rule ∈ rules.registration) :=
    registration_amount_alike named reaching alike (other.campers.map (camperAmounts rules other)) member
  rw [price_detailed_lines rules form named, price_detailed_lines rules other named, amounts, failures,
    lines_same registration, failures_same .registration none registration]

end Pricing

open Pricing in
theorem price_reads_referenced_fields (strictness : Strictness) (draft : Draft) (rules : RuleSet)
    (checked : draft.check strictness = .ok rules) (form other : Form)
    (same : rules.ReadsSame form other) :
    rules.priceDetailed form = rules.priceDetailed other := by
  have named := Draft.check_well_named strictness draft rules checked
  have reaching := Draft.check_reaching strictness draft rules checked
  exact price_detailed_alike named reaching same.alike

-- A note, and an answer under a dotted key, beside the fields that the rules read.
def nightlyDraft : Draft :=
  { camper :=
      [⟨"stay", none, .formula (.arithmetic .multiply
        [.field "camper.nights" none, .field "pricing.night" none])⟩]
    registration :=
      [⟨"total", none, .formula (.arithmetic .subtract
        [.sumOf "stay", .field "registration.discount" none])⟩]
    constants := Json.Object.empty.insert "night" (.number (.whole 15 (by decide)))
    total := none }

def plainForm : Form :=
  { campers := [Json.Object.empty.insert "nights" (.string "2")]
    fields := Json.Object.empty.insert "discount" (.string "5") }

def annotatedForm : Form :=
  { campers := plainForm.campers.map fun camper => camper.insert "name.first" (.string "Ada")
    fields := plainForm.fields.insert "note" (.array [.string "vegetarian", .null]) }

theorem price_reads_referenced_fields_annotated :
    ∃ rules, nightlyDraft.check .lenient = .ok rules ∧ rules.ReadsSame plainForm annotatedForm ∧
      rules.priceDetailed plainForm = rules.priceDetailed annotatedForm ∧
      (rules.price annotatedForm).total.render = "25" := by
  refine ⟨_, rfl, ?_⟩
  generalize checked : RuleSet.mk _ _ _ _ = rules
  have same : rules.ReadsSame plainForm annotatedForm := by
    subst checked
    constructor
    · intro scope
      cases scope with
      | camper => decide +kernel
      | registration => decide +kernel
    · exact .cons (by decide +kernel) .nil
  refine ⟨same, ?_, ?_⟩
  · exact price_reads_referenced_fields .lenient nightlyDraft rules (checked ▸ rfl) _ _ same
  · subst checked
    decide +kernel

end Tariff
