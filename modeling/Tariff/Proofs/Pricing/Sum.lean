import Mathlib.Algebra.Order.Ring.Abs
import Tariff.Proofs.Pricing.Reading

set_option autoImplicit false

namespace Tariff

def InCents (q : ℚ) : Prop := ∃ cents : ℤ, q * tenTo 2 = cents

-- The largest amount in cents that a decimal holds.
def largestAmount : ℚ := Decimal.maxMantissa / 100

theorem in_cents_add {a b : ℚ} (first : InCents a) (second : InCents b) : InCents (a + b) := by
  obtain ⟨m, left⟩ := first
  obtain ⟨n, right⟩ := second
  exact ⟨m + n, by rw [add_mul, left, right, Int.cast_add]⟩

theorem in_cents_short {d : Decimal} (short : d.scale ≤ 2) : InCents d.value := by
  refine ⟨d.signed * tenTo (2 - d.scale), ?_⟩
  rw [Decimal.value_at d 2 short, div_mul_cancel₀ _ (ten_to_ne_zero_rat 2)]

theorem fitted_cents {q : ℚ} (cents : InCents q) (bounded : |q| ≤ largestAmount) :
    Decimal.fitted q = some q := by
  obtain ⟨n, whole⟩ := cents
  have hundred : ((tenTo 2 : Nat) : ℚ) = 100 := rfl
  have magnitude : |(n : ℚ)| ≤ Decimal.maxMantissa := by
    rw [← whole, abs_mul, hundred, abs_of_pos (by norm_num : (0 : ℚ) < 100)]
    exact (le_div_iff₀ (by norm_num)).mp bounded
  have small : n.natAbs ≤ Decimal.maxMantissa := by
    rw [← Int.cast_abs, Int.abs_eq_natAbs] at magnitude
    exact_mod_cast magnitude
  exact Decimal.fitted_exact q 2 n whole (by decide) small

theorem rounded_cents (tie : Tie) {q : ℚ} (cents : InCents q) : Decimal.rounded tie 2 q = q := by
  obtain ⟨n, whole⟩ := cents
  exact Decimal.rounded_exact tie 2 q n whole

theorem add?_cents {a b : Decimal} (first : InCents a.value) (second : InCents b.value)
    (bounded : |a.value + b.value| ≤ largestAmount) :
    ∃ sum, a.add? b = some sum ∧ sum.value = a.value + b.value := by
  have exact := (Decimal.value_add? a b).trans (fitted_cents (in_cents_add first second) bounded)
  exact Option.map_eq_some_iff.mp exact

-- The amounts of one camper rule, from the first camper to the last.
def Quote.column (quote : Quote) (rule : String) : List (Option Decimal) :=
  quote.campers.map (·.get? rule)

namespace Pricing

def addAll? (total : Decimal) (amounts : List (Option Decimal)) : Option Decimal :=
  amounts.foldlM (fun total amount => amount.bind total.add?) total

theorem add_all?_cons (total : Decimal) (amount : Option Decimal) (rest : List (Option Decimal)) :
    addAll? total (amount :: rest) =
      (amount.bind total.add?).bind fun next => addAll? next rest := by
  rw [addAll?, List.foldlM_cons]
  rfl

theorem sum_of?_eq_add_all? (campers : List Amounts) (rule : String) :
    sumOf? campers rule = addAll? .zero (campers.map (·.get? rule)) := by
  rw [addAll?, List.foldlM_map]
  rfl

theorem add_all?_present {total sum : Decimal} {amounts : List (Option Decimal)}
    (added : addAll? total amounts = some sum) : ∀ amount ∈ amounts, amount.isSome = true := by
  induction amounts generalizing total with
  | nil => intro amount member; cases member
  | cons first rest ih =>
      rw [add_all?_cons] at added
      obtain ⟨next, here, later⟩ := Option.bind_eq_some_iff.mp added
      obtain ⟨amount, present, _⟩ := Option.bind_eq_some_iff.mp here
      intro other member
      rcases List.mem_cons.mp member with same | inRest
      · rw [same, present]
        rfl
      · exact ih later other inRest

theorem add_all?_exact (total : Decimal) (amounts : List Decimal) (start : InCents total.value)
    (cents : ∀ amount ∈ amounts, InCents amount.value)
    (bounded : ∀ count, |total.value + ((amounts.take count).map Decimal.value).sum| ≤ largestAmount) :
    ∃ sum, addAll? total (amounts.map some) = some sum ∧ InCents sum.value ∧
      sum.value = total.value + (amounts.map Decimal.value).sum := by
  induction amounts generalizing total with
  | nil => exact ⟨total, rfl, start, by rw [List.map_nil, List.sum_nil, add_zero]⟩
  | cons amount rest ih =>
      have own : InCents amount.value := cents amount List.mem_cons_self
      have first : |total.value + amount.value| ≤ largestAmount := by simpa using bounded 1
      obtain ⟨next, made, value⟩ := add?_cents start own first
      have later (count : Nat) :
          |next.value + ((rest.take count).map Decimal.value).sum| ≤ largestAmount := by
        rw [value, add_assoc]
        simpa using bounded (count + 1)
      obtain ⟨sum, added, whole, exact⟩ := ih next (value ▸ in_cents_add start own)
        (fun other member => cents other (List.mem_cons_of_mem _ member)) later
      refine ⟨sum, ?_, whole, ?_⟩
      · rw [List.map_cons, add_all?_cons, Option.bind_some, made, Option.bind_some, added]
      · rw [exact, value, List.map_cons, List.sum_cons, add_assoc]

theorem abs_prefix_le (amounts : List Decimal) (count : Nat) :
    |((amounts.take count).map Decimal.value).sum| ≤
      (amounts.map fun amount => |amount.value|).sum := by
  induction amounts generalizing count with
  | nil => simp
  | cons amount rest ih =>
      rw [List.map_cons, List.sum_cons]
      cases count with
      | zero =>
          have nonnegative := (abs_nonneg _).trans (ih 0)
          simpa using add_nonneg (abs_nonneg amount.value) nonnegative
      | succ count =>
          rw [List.take_succ_cons, List.map_cons, List.sum_cons]
          exact (abs_add_le _ _).trans (add_le_add le_rfl (ih count))

theorem amount_of_in_cents {environment : Environment} {rule : Rule} {amount : Decimal}
    (priced : (amountOf environment rule).toOption = some amount) : InCents amount.value := by
  have same : (rule.name, some amount) = lineOf environment rule := congrArg _ priced.symm
  exact in_cents_short (amount_of_short (line_of_amount environment same).2)

theorem column_amounts {rules : RuleSet} (named : rules.WellNamed) (form : Form) {rule : Rule}
    (member : rule ∈ rules.camper) :
    (rules.price form).column rule.name = form.campers.map fun camper =>
      (amountOf (camperEnvironment rules form camper) rule).toOption := by
  rw [Quote.column, price_campers named form, List.map_map]
  exact congrArg (List.map · form.campers) (funext fun camper =>
    camper_amounts_get? named form camper member)

theorem column_in_cents {rules : RuleSet} (named : rules.WellNamed) (form : Form) {rule : Rule}
    (member : rule ∈ rules.camper) {amount : Decimal}
    (found : some amount ∈ (rules.price form).column rule.name) : InCents amount.value := by
  rw [column_amounts named form member] at found
  obtain ⟨camper, _, priced⟩ := List.mem_map.mp found
  exact amount_of_in_cents priced

theorem sum_amount {environment : Environment} {rule : Rule} {name : String} {sum : Option Decimal}
    (body : rule.body = .ok (.sumOf name))
    (read : environment.lookup (Formula.sumRoot ++ "." ++ name) = numberRead sum) :
    (amountOf environment rule).toOption = sum.map toAmount := by
  rw [amountOf, body]
  dsimp only
  rw [Formula.sumOf, Formula.evaluate, read]
  cases sum with
  | none => rfl
  | some value => rfl

end Pricing

open Pricing in
theorem sum_equals_line_items (strictness : Strictness) (draft : Draft) (rules : RuleSet)
    (checked : draft.check strictness = .ok rules) (rule total : Rule)
    (camperRule : rule ∈ rules.camper) (registrationRule : total ∈ rules.registration)
    (body : total.body = .ok (.sumOf rule.name)) (form : Form) :
    let quote := rules.price form
    (∀ sum, quote.registrationAmount? total.name = some sum →
        ∀ amount ∈ quote.column rule.name, amount.isSome = true) ∧
      ∀ amounts : List Decimal, quote.column rule.name = amounts.map some →
        (∀ count, |((amounts.take count).map Decimal.value).sum| ≤ largestAmount) →
        ∃ sum, quote.registrationAmount? total.name = some sum ∧
          sum.value = (amounts.map Decimal.value).sum := by
  intro quote
  have named := Draft.check_well_named strictness draft rules checked
  have read := registration_sum rules form named quote.campers (List.mem_map_of_mem camperRule)
  have amount : quote.registrationAmount? total.name =
      (addAll? .zero (quote.column rule.name)).map toAmount := by
    rw [Quote.column, ← sum_of?_eq_add_all?, ← sum_amount body read]
    exact price_registration_amount named form registrationRule
  rw [amount]
  constructor
  · intro sum added
    obtain ⟨exact, present, _⟩ := Option.map_eq_some_iff.mp added
    exact add_all?_present present
  · intro amounts column bounded
    have cents (amount : Decimal) (member : amount ∈ amounts) : InCents amount.value := by
      refine column_in_cents named form camperRule ?_
      exact column ▸ List.mem_map_of_mem member
    obtain ⟨sum, added, whole, exact⟩ := add_all?_exact .zero amounts (in_cents_short (Nat.zero_le 2)) cents
      (fun count => by rw [Decimal.value_zero, zero_add]; exact bounded count)
    rw [Decimal.value_zero, zero_add] at exact
    refine ⟨toAmount sum, by rw [column, added, Option.map_some], ?_⟩
    rw [toAmount, Decimal.value_round_to, rounded_cents .awayFromZero whole, exact]

def feeDraft : Draft :=
  { camper := [⟨"fee", none, .formula (.field "camper.fee" none)⟩]
    registration := [⟨"total", none, .formula (.sumOf "fee")⟩]
    constants := .empty
    total := none }

def feeForm (fees : List String) : Form :=
  { campers := fees.map fun fee => Json.Object.empty.insert "fee" (.string fee)
    fields := .empty }

theorem sum_equals_line_items_refund :
    ∃ rules, feeDraft.check .lenient = .ok rules ∧
      ∃ sum, (rules.price (feeForm ["0.10", "-0.3"])).registrationAmount? "total" = some sum ∧
        sum.value = -2 / 10 := by
  refine ⟨_, rfl, ?_⟩
  let amounts : List Decimal :=
    [⟨false, 10, 2, by decide, by decide⟩, ⟨true, 3, 1, by decide, by decide⟩]
  have bounded : (amounts.map fun amount => |amount.value|).sum ≤ largestAmount := by decide +kernel
  obtain ⟨sum, priced, exact⟩ := (sum_equals_line_items .lenient feeDraft _ rfl _ _ (.head _)
    (.head _) rfl (feeForm ["0.10", "-0.3"])).2 amounts (by decide +kernel)
    (fun count => (Pricing.abs_prefix_le amounts count).trans bounded)
  exact ⟨sum, priced, exact.trans (by decide +kernel)⟩

def hugeFees : Form :=
  feeForm ["792281625142643375935439503.35", "0.01", "-792281625142643375935439503.35"]

theorem sum_rounds_beyond_largest_amount :
    ∃ rules amounts sum, feeDraft.check .lenient = .ok rules ∧
      (rules.price hugeFees).column "fee" = List.map some amounts ∧
      (rules.price hugeFees).registrationAmount? "total" = some sum ∧
      (amounts.map Decimal.value).sum = 1 / 100 ∧ sum.value = 5 / 100 := by
  refine ⟨_, [⟨false, Decimal.maxMantissa, 2, by decide, by decide⟩,
    ⟨false, 1, 2, by decide, by decide⟩, ⟨true, Decimal.maxMantissa, 2, by decide, by decide⟩],
    ⟨false, 5, 2, by decide, by decide⟩, rfl, ?_, ?_, ?_, ?_⟩
  · decide +kernel
  · decide +kernel
  · decide +kernel
  · decide +kernel

end Tariff
