import Mathlib.Algebra.BigOperators.Group.List.Basic
import Tariff.Proofs.Pricing.Sum

/-! A formula that takes a remainder of a sum is left out: the sum may get another scale, and an inexact
remainder depends on it. -/

set_option autoImplicit false

namespace Tariff

section

variable {α β : Type}

-- What stands at these places, one after the other.
def reordered (order : List Nat) (list : List α) : List α := order.filterMap (list[·]?)

theorem reordered_map (order : List Nat) (list : List α) (f : α → β) :
    reordered order (list.map f) = (reordered order list).map f := by
  unfold reordered
  rw [List.map_filterMap]
  simp only [List.getElem?_map]

theorem reordered_range (list : List α) : reordered (List.range list.length) list = list := by
  unfold reordered
  induction list with
  | nil => rfl
  | cons first rest ih =>
      rw [List.length_cons, List.range_succ_eq_map, List.filterMap_cons_some (by rfl),
        List.filterMap_map]
      exact congrArg (first :: ·) ih

theorem reordered_perm {order : List Nat} {list : List α}
    (permutation : order.Perm (List.range list.length)) : (reordered order list).Perm list := by
  have same := permutation.filterMap (list[·]?)
  rwa [← reordered, ← reordered, reordered_range] at same

end

def Form.reorder (order : List Nat) (form : Form) : Form :=
  { form with campers := reordered order form.campers }

def Amounts.values (amounts : Amounts) : Named (Option ℚ) :=
  amounts.map fun (rule, amount) => (rule, amount.map Decimal.value)

theorem Amounts.value_get? (amounts : Amounts) (rule : String) :
    (amounts.get? rule).map Decimal.value = (amounts.values.lookup rule).join := by
  induction amounts with
  | nil => rfl
  | cons entry rest ih =>
      obtain ⟨name, amount⟩ := entry
      unfold get? values at *
      by_cases here : rule = name
      · simp [here]
      · simpa [List.lookup_cons, beq_eq_false_iff_ne.mpr here] using ih

namespace Pricing

-- No amount can be missing unnoticed: either one is, or all of them together fit in cents.
def Summable (amounts : List (Option Decimal)) : Prop :=
  none ∈ amounts ∨
    ((amounts.filterMap id).map fun amount => |amount.value|).sum ≤ largestAmount

theorem all_present {amounts : List (Option Decimal)} (present : none ∉ amounts) :
    amounts = (amounts.filterMap id).map some := by
  induction amounts with
  | nil => rfl
  | cons amount rest ih =>
      obtain ⟨here, later⟩ := List.ne_and_not_mem_of_not_mem_cons present
      cases amount with
      | none => exact absurd rfl here
      | some value => exact congrArg (some value :: ·) (ih later)

theorem add_all?_value {amounts : List (Option Decimal)} (summable : Summable amounts)
    (cents : ∀ amount, some amount ∈ amounts → InCents amount.value) :
    (addAll? .zero amounts).map Decimal.value =
      if none ∈ amounts then none else some ((amounts.filterMap id).map Decimal.value).sum := by
  by_cases missing : none ∈ amounts
  · rw [if_pos missing]
    cases added : addAll? .zero amounts with
    | none => rfl
    | some sum => exact absurd (add_all?_present added none missing) Bool.false_ne_true
  · have whole := all_present missing
    have bounded := summable.resolve_left missing
    generalize amounts.filterMap id = present at whole bounded
    subst whole
    obtain ⟨sum, added, _, exact⟩ := add_all?_exact .zero present (in_cents_short (Nat.zero_le 2))
      (fun amount member => cents amount (List.mem_map_of_mem member))
      (fun count => by
        rw [Decimal.value_zero, zero_add]
        exact (abs_prefix_le present count).trans bounded)
    rw [if_neg missing, added, Option.map_some, exact, Decimal.value_zero, zero_add]

theorem add_all?_perm {amounts others : List (Option Decimal)} (same : amounts.Perm others)
    (summable : Summable amounts) (cents : ∀ amount, some amount ∈ amounts → InCents amount.value) :
    Option.Rel SameValue (addAll? .zero amounts) (addAll? .zero others) := by
  have present := same.filterMap id
  have alsoSummable : Summable others := by
    refine summable.imp same.mem_iff.mp fun bounded => ?_
    rwa [← (present.map fun amount => |amount.value|).sum_eq]
  have alsoCents (amount : Decimal) (member : some amount ∈ others) : InCents amount.value :=
    cents amount (same.mem_iff.mpr member)
  rw [SameValue.rel_iff, add_all?_value summable cents, add_all?_value alsoSummable alsoCents,
    (present.map Decimal.value).sum_eq]
  simp only [same.mem_iff]

section

variable {rules : RuleSet} (named : rules.WellNamed) (form : Form) {order : List Nat}

include named

theorem price_campers_reordered :
    (rules.price (form.reorder order)).campers = reordered order (rules.price form).campers := by
  rw [price_campers named, price_campers named, reordered_map]
  rfl

theorem sum_reordered (permutation : order.Perm (List.range form.campers.length)) {rule : Rule}
    (member : rule ∈ rules.camper) (summable : Summable ((rules.price form).column rule.name)) :
    Option.Rel SameValue (sumOf? (rules.price form).campers rule.name)
      (sumOf? (rules.price (form.reorder order)).campers rule.name) := by
  have campers : order.Perm (List.range ((rules.price form).campers.map (·.get? rule.name)).length) := by
    rwa [List.length_map, price_campers named, List.length_map]
  rw [sum_of?_eq_add_all?, sum_of?_eq_add_all?, price_campers_reordered named, ← reordered_map]
  exact add_all?_perm (reordered_perm campers).symm summable fun amount found =>
    column_in_cents named form member found

end

-- Does a formula take no remainder, or at least read no sum?
def SumsExact (formula : Formula) : Prop :=
  (∃ name, Formula.sumRoot ++ "." ++ name ∈ formula.fields) → .remainder ∉ formula.operations

theorem registration_amount_reordered {rules : RuleSet} (named : rules.WellNamed)
    (reaching : rules.Reaching) {form other : Form} (counts : form.camperCount = other.camperCount)
    (fields : form.fields = other.fields) {campers others : List Amounts} {rule : Rule}
    (member : rule ∈ rules.registration)
    (exact : ∀ formula, rule.body = .ok formula → SumsExact formula)
    (sums : ∀ name ∈ rules.camper.map (·.name),
      Option.Rel SameValue (sumOf? campers name) (sumOf? others name)) :
    Option.Rel SameValue (amountOf (registrationEnvironment rules form campers) rule).toOption
      (amountOf (registrationEnvironment rules other others) rule).toOption := by
  have rounds (a b : Decimal) (same : SameValue a b) : SameValue (toAmount a) (toAmount b) := by
    rw [SameValue, toAmount, toAmount, Decimal.value_round_to, Decimal.value_round_to, same]
  have reads {near : Decimal → Decimal → Prop} (formula : Formula) (body : rule.body = .ok formula)
      (path : String) (field : path ∈ formula.fields)
      (sums : ∀ name, path = Formula.sumRoot ++ "." ++ name →
        Option.Rel near (sumOf? campers name) (sumOf? others name)) :
      Formula.ReadsAlike False near (registrationEnvironment rules form campers)
        (registrationEnvironment rules other others) path := by
    have reaches := reaching .registration rule member formula body path field
    exact registration_reads_alike named named rfl counts reaches reaches
      (same_reads_alike (by rw [fields])) sums
  by_cases remainder : ∃ formula, rule.body = .ok formula ∧ .remainder ∈ formula.operations
  · -- No sum is read, and all else is the same.
    obtain ⟨formula, body, operation⟩ := remainder
    have same : amountOf (registrationEnvironment rules form campers) rule =
        amountOf (registrationEnvironment rules other others) rule := by
      refine amount_of_congr rfl fun found foundBody path field => ?_
      refine reads found foundBody path field fun name isSum => ?_
      have isFormula : found = formula := Except.ok.inj (foundBody.symm.trans body)
      subst isFormula isSum
      exact absurd operation (exact found body ⟨name, field⟩)
    rw [same, SameValue.rel_iff]
  · refine (amount_of_related nearness_same_value rounds rfl ?_ ?_).to_option
    · intro formula body path field
      refine reads formula body path field fun name isSum => ?_
      have reaches := reaching .registration rule member formula body path field
      exact sums name (reaches.sum_member isSum)
    · intro formula body op operation
      refine op.respects_same_value ?_
      intro isRemainder
      exact remainder ⟨formula, body, isRemainder ▸ operation⟩

end Pricing

open Pricing in
theorem camper_order_keeps_registration (strictness : Strictness) (draft : Draft) (rules : RuleSet)
    (checked : draft.check strictness = .ok rules)
    (exact : ∀ rule ∈ rules.registration, ∀ formula, rule.body = .ok formula → SumsExact formula)
    (form : Form) (order : List Nat) (permutation : order.Perm (List.range form.campers.length))
    (summable : ∀ rule ∈ rules.camper, Summable ((rules.price form).column rule.name)) :
    let quote := rules.price form
    let other := rules.price (form.reorder order)
    other.campers = reordered order quote.campers ∧
      other.registration.values = quote.registration.values ∧
      other.total.value = quote.total.value := by
  intro quote other
  have named := Draft.check_well_named strictness draft rules checked
  have reaching := Draft.check_reaching strictness draft rules checked
  have counts : form.camperCount = (form.reorder order).camperCount :=
    (reordered_perm permutation).length_eq.symm
  have sums : ∀ name ∈ rules.camper.map (·.name),
      Option.Rel SameValue (sumOf? quote.campers name) (sumOf? other.campers name) := by
    intro name member
    obtain ⟨rule, inRules, same⟩ := List.mem_map.mp member
    exact same ▸ sum_reordered named form permutation inRules (summable rule inRules)
  have registration : other.registration.values = quote.registration.values := by
    rw [price_registration named form, price_registration named (form.reorder order),
      Amounts.values, Amounts.values, List.map_map, List.map_map]
    refine List.map_congr_left fun rule member => ?_
    have amounts := registration_amount_reordered named reaching counts rfl member
      (exact rule member) sums
    rw [SameValue.rel_iff] at amounts
    exact congrArg (rule.name, ·) amounts.symm
  have total (quote : Quote) : (((quote.registration.get? rules.total).getD .zero).value) =
      (quote.registration.values.lookup rules.total).join.getD 0 := by
    rw [← Amounts.value_get?, ← Decimal.value_zero, Option.getD_map]
  refine ⟨price_campers_reordered named form, registration, ?_⟩
  calc other.total.value = (other.registration.values.lookup rules.total).join.getD 0 := total other
    _ = (quote.registration.values.lookup rules.total).join.getD 0 := by rw [registration]
    _ = quote.total.value := (total quote).symm

theorem camper_order_keeps_registration_rotated :
    ∃ rules, feeDraft.check .lenient = .ok rules ∧
      (rules.price ((feeForm ["8", "1.25", "-1.25"]).reorder [1, 2, 0])).total.value =
        (rules.price (feeForm ["8", "1.25", "-1.25"])).total.value ∧
      (rules.price (feeForm ["8", "1.25", "-1.25"])).total.value = 8 := by
  refine ⟨_, rfl, ?_, by decide +kernel⟩
  refine (camper_order_keeps_registration .lenient feeDraft _ rfl ?_ (feeForm ["8", "1.25", "-1.25"])
    [1, 2, 0] (by decide) ?_).2.2
  · intro rule member formula body _
    have isTotal := List.mem_singleton.mp member
    subst isTotal
    cases body
    exact List.not_mem_nil
  · intro rule member
    have isFee := List.mem_singleton.mp member
    subst isFee
    exact .inr (by decide +kernel)

def remainderDraft : Draft :=
  { feeDraft with
    registration := [⟨"total", none, .formula (.arithmetic .remainder
      [.literal (.number { Decimal.one with mantissa := 274877906942, mantissa_le := by decide }),
        .arithmetic .multiply
          [.sumOf "fee", .literal (.number ⟨false, 10 ^ 18, 18, by decide, by decide⟩)]])⟩] }

theorem remainder_depends_on_camper_order :
    ∃ rules, remainderDraft.check .lenient = .ok rules ∧
      [1, 2, 0].Perm (List.range (feeForm ["8", "1.25", "-1.25"]).campers.length) ∧
      (∀ rule ∈ rules.camper, Pricing.Summable
        ((rules.price (feeForm ["8", "1.25", "-1.25"])).column rule.name)) ∧
      (rules.price (feeForm ["8", "1.25", "-1.25"])).total.value = 595 / 100 ∧
      (rules.price ((feeForm ["8", "1.25", "-1.25"]).reorder [1, 2, 0])).total.value = 6 := by
  refine ⟨_, rfl, by decide, ?_, by decide +kernel, by decide +kernel⟩
  intro rule member
  have isFee := List.mem_singleton.mp member
  subst isFee
  exact .inr (by decide +kernel)

end Tariff
