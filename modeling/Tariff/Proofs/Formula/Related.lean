import Mathlib.Data.Option.Basic
import Mathlib.Data.List.Forall2
import Tariff.Formula.Evaluation
import Tariff.Proofs.Decimal.Quotient

set_option autoImplicit false

namespace Tariff

inductive Related {ε α : Type} (forgiving : Prop) (near : α → α → Prop) :
    Except ε α → Except ε α → Prop
  | ok {a b : α} (values : near a b) : Related forgiving near (.ok a) (.ok b)
  | error (e : ε) : Related forgiving near (.error e) (.error e)
  | forgiven (allowed : forgiving) (e : ε) (other : Except ε α) :
      Related forgiving near (.error e) other

namespace Related

variable {ε α β : Type} {forgiving : Prop} {near : α → α → Prop} {nearNext : β → β → Prop}

theorem refl (reflexive : ∀ a, near a a) (outcome : Except ε α) :
    Related forgiving near outcome outcome := by
  cases outcome with
  | ok a => exact .ok (reflexive a)
  | error e => exact .error e

theorem bind {left right : Except ε α} {next other : α → Except ε β}
    (related : Related forgiving near left right)
    (continued : ∀ a b, near a b → Related forgiving nearNext (next a) (other b)) :
    Related forgiving nearNext (left >>= next) (right >>= other) := by
  cases related with
  | ok values => exact continued _ _ values
  | error e => exact .error e
  | forgiven allowed e other => exact .forgiven allowed e _

theorem map {left right : Except ε α} {next other : α → β}
    (related : Related forgiving near left right)
    (continued : ∀ a b, near a b → nearNext (next a) (other b)) :
    Related forgiving nearNext (left.map next) (right.map other) := by
  cases related with
  | ok values => exact .ok (continued _ _ values)
  | error e => exact .error e
  | forgiven allowed e other => exact .forgiven allowed e _

theorem eq {left right : Except ε α} (related : Related False Eq left right) : left = right := by
  cases related with
  | ok values => rw [values]
  | error e => rfl
  | forgiven allowed => exact allowed.elim

theorem to_option {left right : Except ε α} (related : Related False near left right) :
    Option.Rel near left.toOption right.toOption := by
  cases related with
  | ok values => exact .some values
  | error e => exact .none
  | forgiven allowed => exact allowed.elim

end Related

structure Nearness (near : Decimal → Decimal → Prop) : Prop where
  refl : ∀ d, near d d
  value : ∀ a b, near a b → a.value = b.value

theorem Nearness.rel_refl {near : Decimal → Decimal → Prop} (nearness : Nearness near)
    (number : Option Decimal) : Option.Rel near number number := by
  cases number with
  | none => exact .none
  | some value => exact .some (nearness.refl value)

namespace Scalar

inductive Near (near : Decimal → Decimal → Prop) : Scalar → Scalar → Prop
  | same (value : Scalar) : Near near value value
  | number {a b : Decimal} (numbers : near a b) : Near near (.number a) (.number b)

theorem compare_left {x y : Decimal} (values : x.value = y.value) (comparison : Comparison)
    (b : Scalar) : (Scalar.number x).compare comparison b = (Scalar.number y).compare comparison b := by
  have sameness (z : Decimal) : x.same z = y.same z := by
    rw [Bool.eq_iff_iff, Decimal.same_iff, Decimal.same_iff, values]
  cases b with
  | text text =>
      cases number : numberOfText? text <;> cases comparison <;>
        simp [compare, compare?, alike, same, order?, number?, number, sameness,
          Decimal.order_eq_compare, values]
  | _ =>
      cases comparison <;>
        simp [compare, compare?, alike, same, order?, number?, sameness,
          Decimal.order_eq_compare, values]

theorem compare_right {x y : Decimal} (values : x.value = y.value) (comparison : Comparison)
    (a : Scalar) : a.compare comparison (.number x) = a.compare comparison (.number y) := by
  have sameness (z : Decimal) : z.same x = z.same y := by
    rw [Bool.eq_iff_iff, Decimal.same_iff, Decimal.same_iff, values]
  cases a with
  | text text =>
      cases number : numberOfText? text <;> cases comparison <;>
        simp [compare, compare?, alike, same, order?, number?, number, sameness,
          Decimal.order_eq_compare, values]
  | _ =>
      cases comparison <;>
        simp [compare, compare?, alike, same, order?, number?, sameness,
          Decimal.order_eq_compare, values]

section

variable {near : Decimal → Decimal → Prop} (nearness : Nearness near)

include nearness

theorem near_truthy {a b : Scalar} (values : Near near a b) : a.truthy = b.truthy := by
  cases values with
  | same value => rfl
  | number numbers =>
      rw [Scalar.truthy, Scalar.truthy, Bool.not_eq_eq_eq_not, Bool.not_not, Bool.eq_iff_iff,
        Decimal.is_zero_iff, Decimal.is_zero_iff, nearness.value _ _ numbers]

theorem near_compare (comparison : Comparison) {a b c d : Scalar} (left : Near near a b)
    (right : Near near c d) : a.compare comparison c = b.compare comparison d := by
  calc a.compare comparison c = b.compare comparison c := by
        cases left with
        | same value => rfl
        | number numbers => exact compare_left (nearness.value _ _ numbers) comparison c
    _ = b.compare comparison d := by
        cases right with
        | same value => rfl
        | number numbers => exact compare_right (nearness.value _ _ numbers) comparison b

theorem near_alike {a b c d : Scalar} (left : Near near a b) (right : Near near c d) :
    a.alike c = b.alike d := near_compare nearness .equal left right

omit nearness in
theorem near_contains_text {a b c d : Scalar} (left : Near near a b) (right : Near near c d) :
    Outcome.containsText a c = Outcome.containsText b d := by
  cases left with
  | same value =>
      cases right with
      | same other => rfl
      | number numbers => cases a <;> rfl
  | number numbers => rfl

end

end Scalar

def Keeps (near : Decimal → Decimal → Prop) (operation : Decimal → Decimal → Option Decimal) :
    Prop :=
  ∀ a b c d, near a b → near c d → Option.Rel near (operation a c) (operation b d)

def Arithmetic.Respects (near : Decimal → Decimal → Prop) : Arithmetic → Prop
  | .add => Keeps near Decimal.add?
  | .subtract => (∀ a b, near a b → near a.neg b.neg) ∧ Keeps near Decimal.sub?
  | .multiply => Keeps near Decimal.mul?
  | .divide => Keeps near Decimal.div?
  | .remainder => Keeps near Decimal.rem?
  | .least => ∀ a b c d, near a b → near c d → near (a.least c) (b.least d)
  | .greatest => ∀ a b c d, near a b → near c d → near (a.greatest c) (b.greatest d)

namespace Outcome

section

variable {forgiving : Prop} {near : Decimal → Decimal → Prop} (nearness : Nearness near)

abbrev Alike (forgiving : Prop) (near : Decimal → Decimal → Prop) : Outcome → Outcome → Prop :=
  Related forgiving (Scalar.Near near)

include nearness

theorem number_related {left right : Outcome} (related : Alike forgiving near left right) :
    Related forgiving near left.number right.number := by
  cases related with
  | ok values =>
      cases values with
      | same value => exact .refl nearness.refl _
      | number numbers => exact .ok numbers
  | error failure => exact .error failure
  | forgiven allowed failure other => exact .forgiven allowed failure _

omit nearness in
theorem or_overflow_related (op : Arithmetic) {left right : Option Decimal}
    (related : Option.Rel near left right) :
    Related forgiving near (orOverflow op left) (orOverflow op right) := by
  cases related with
  | some numbers => exact .ok numbers
  | none => exact .error _

theorem accumulate_related (op : Arithmetic) {step : Decimal → Decimal → Option Decimal}
    (keeps : Keeps near step) {left right : List Outcome}
    (related : List.Forall₂ (Alike forgiving near) left right) (total other : Decimal)
    (totals : near total other) :
    Related forgiving near (accumulate op step total left) (accumulate op step other right) := by
  induction related generalizing total other with
  | nil => exact .ok totals
  | cons first rest ih =>
      refine .bind (number_related nearness first) ?_
      intro a b numbers
      have next := keeps _ _ _ _ totals numbers
      cases made : step total a <;> cases alsoMade : step other b <;> rw [made, alsoMade] at next
      · exact .error _
      · cases next
      · cases next
      · cases next with
        | some numbers => exact ih _ _ numbers

theorem pick_of_related {pick : Decimal → Decimal → Decimal}
    (keeps : ∀ a b c d, near a b → near c d → near (pick a c) (pick b d)) {left right : List Outcome}
    (related : List.Forall₂ (Alike forgiving near) left right) (best other : Decimal)
    (bests : near best other) :
    Related forgiving near (pickOf pick best left) (pickOf pick other right) := by
  induction related generalizing best other with
  | nil => exact .ok bests
  | cons first rest ih =>
      exact .bind (number_related nearness first) fun a b numbers =>
        ih _ _ (keeps _ _ _ _ bests numbers)

theorem extreme_related (op : Arithmetic) {pick : Decimal → Decimal → Decimal}
    (keeps : ∀ a b c d, near a b → near c d → near (pick a c) (pick b d)) {left right : List Outcome}
    (related : List.Forall₂ (Alike forgiving near) left right) :
    Related forgiving near (extreme op pick left) (extreme op pick right) := by
  cases related with
  | nil => exact .error _
  | cons first rest =>
      exact .bind (number_related nearness first) fun a b numbers =>
        pick_of_related nearness keeps rest _ _ numbers

theorem divided_related (op : Arithmetic) {quotient : Decimal → Decimal → Option Decimal}
    (keeps : Keeps near quotient) {a b c d : Outcome} (left : Alike forgiving near a b)
    (right : Alike forgiving near c d) :
    Related forgiving near (divided op quotient a c) (divided op quotient b d) := by
  refine .bind (number_related nearness left) ?_
  intro dividend otherDividend dividends
  refine .bind (number_related nearness right) ?_
  intro divisor otherDivisor divisors
  have zeros : divisor.isZero = otherDivisor.isZero := by
    rw [Bool.eq_iff_iff, Decimal.is_zero_iff, Decimal.is_zero_iff, nearness.value _ _ divisors]
  rw [← zeros]
  cases divisor.isZero with
  | true => exact .error _
  | false => exact or_overflow_related op (keeps _ _ _ _ dividends divisors)

theorem subtracted_related (keeps : Keeps near Decimal.sub?) {a b c d : Outcome}
    (left : Alike forgiving near a b) (right : Alike forgiving near c d) :
    Related forgiving near (subtracted a c) (subtracted b d) := by
  refine .bind (number_related nearness left) ?_
  intro minuend otherMinuend minuends
  refine .bind (number_related nearness right) ?_
  intro subtrahend otherSubtrahend subtrahends
  exact or_overflow_related .subtract (keeps _ _ _ _ minuends subtrahends)

theorem arithmetic_related (op : Arithmetic) (respects : op.Respects near)
    {left right : List Outcome} (related : List.Forall₂ (Alike forgiving near) left right) :
    Related forgiving near (arithmetic op left) (arithmetic op right) := by
  cases op with
  | add => exact accumulate_related nearness .add respects related _ _ (nearness.refl _)
  | multiply => exact accumulate_related nearness .multiply respects related _ _ (nearness.refl _)
  | least => exact extreme_related nearness .least respects related
  | greatest => exact extreme_related nearness .greatest respects related
  | subtract =>
      cases related with
      | nil => exact .error _
      | cons first rest =>
          cases rest with
          | nil => exact .map (number_related nearness first) respects.1
          | cons second rest =>
              cases rest with
              | nil => exact subtracted_related nearness respects.2 first second
              | cons third rest => exact .error _
  | divide | remainder =>
      cases related with
      | nil => exact .error _
      | cons first rest =>
          cases rest with
          | nil => exact .error _
          | cons second rest =>
              cases rest with
              | nil => exact divided_related nearness _ respects first second
              | cons third rest => exact .error _

theorem all_of_related {left right : List Outcome}
    (related : List.Forall₂ (Alike forgiving near) left right) (last other : Scalar)
    (lasts : Scalar.Near near last other) :
    Alike forgiving near (allOf last left) (allOf other right) := by
  induction related generalizing last other with
  | nil => exact .ok lasts
  | cons first rest ih =>
      refine .bind first ?_
      intro value otherValue values
      rw [← Scalar.near_truthy nearness values]
      cases value.truthy with
      | true => exact ih _ _ values
      | false => exact .ok values

theorem any_of_related {left right : List Outcome}
    (related : List.Forall₂ (Alike forgiving near) left right) (last other : Scalar)
    (lasts : Scalar.Near near last other) :
    Alike forgiving near (anyOf last left) (anyOf other right) := by
  induction related generalizing last other with
  | nil => exact .ok lasts
  | cons first rest ih =>
      refine .bind first ?_
      intro value otherValue values
      rw [← Scalar.near_truthy nearness values]
      cases value.truthy with
      | true => exact .ok values
      | false => exact ih _ _ values

theorem among_of_related {needle other : Scalar} (needles : Scalar.Near near needle other)
    {left right : List Outcome} (related : List.Forall₂ (Alike forgiving near) left right) :
    Related forgiving Eq (amongOf needle left) (amongOf other right) := by
  induction related with
  | nil => exact .ok rfl
  | cons first rest ih =>
      refine .bind first ?_
      intro value otherValue values
      rw [← Scalar.near_alike nearness needles values]
      cases needle.alike value with
      | true => exact .ok rfl
      | false => exact ih

theorem choice_related {otherwise other : Outcome} (others : Alike forgiving near otherwise other)
    {left right : List (Outcome × Outcome)}
    (related : List.Forall₂ (fun a b => Alike forgiving near a.1 b.1 ∧ Alike forgiving near a.2 b.2)
      left right) :
    Alike forgiving near (choice otherwise left) (choice other right) := by
  induction related with
  | nil => exact others
  | cons first rest ih =>
      refine .bind first.1 ?_
      intro value otherValue values
      rw [← Scalar.near_truthy nearness values]
      cases value.truthy with
      | true => exact first.2
      | false => exact ih

end

end Outcome

namespace Formula

mutual

def operations : Formula → List Arithmetic
  | .literal _ => []
  | .field _ _ => []
  | .arithmetic op operands => op :: operationsEach operands
  | .compare _ left right => left.operations ++ right.operations
  | .all operands => operationsEach operands
  | .any operands => operationsEach operands
  | .not operand => operand.operations
  | .truth operand => operand.operations
  | .choose branches none => operationsBranches branches
  | .choose branches (some otherwise) => operationsBranches branches ++ otherwise.operations
  | .among needle candidates => needle.operations ++ operationsEach candidates
  | .contains haystack needle => haystack.operations ++ needle.operations

def operationsEach : List Formula → List Arithmetic
  | [] => []
  | formula :: rest => formula.operations ++ operationsEach rest

def operationsBranches : List (Formula × Formula) → List Arithmetic
  | [] => []
  | (condition, consequence) :: rest =>
      condition.operations ++ consequence.operations ++ operationsBranches rest

end

-- A field reads alike whatever its default is.
def ReadsAlike (forgiving : Prop) (near : Decimal → Decimal → Prop)
    (environment other : Environment) (path : String) : Prop :=
  ∀ default, Outcome.Alike forgiving near (Outcome.ofLookup path default (environment.lookup path))
    (Outcome.ofLookup path default (other.lookup path))

theorem ReadsAlike.of_lookup {forgiving : Prop} {near : Decimal → Decimal → Prop}
    {environment other bare otherBare : Environment} {path : String}
    (here : environment.lookup path = bare.lookup path)
    (there : other.lookup path = otherBare.lookup path)
    (alike : ReadsAlike forgiving near bare otherBare path) :
    ReadsAlike forgiving near environment other path := by
  intro default
  rw [here, there]
  exact alike default

structure Agreement (forgiving : Prop) (near : Decimal → Decimal → Prop)
    (environment other : Environment) (fields : List String) (operations : List Arithmetic) :
    Prop where
  reads : ∀ path ∈ fields, ReadsAlike forgiving near environment other path
  respects : ∀ op ∈ operations, op.Respects near

section

variable {forgiving : Prop} {near : Decimal → Decimal → Prop} {environment other : Environment}

theorem Agreement.left {fields more : List String} {operations further : List Arithmetic}
    (agreement : Agreement forgiving near environment other (fields ++ more)
      (operations ++ further)) : Agreement forgiving near environment other fields operations where
  reads path member := agreement.reads path (List.mem_append_left more member)
  respects op member := agreement.respects op (List.mem_append_left further member)

theorem Agreement.right {fields more : List String} {operations further : List Arithmetic}
    (agreement : Agreement forgiving near environment other (fields ++ more)
      (operations ++ further)) : Agreement forgiving near environment other more further where
  reads path member := agreement.reads path (List.mem_append_right fields member)
  respects op member := agreement.respects op (List.mem_append_right operations member)

mutual

theorem evaluate_related (nearness : Nearness near) (formula : Formula)
    (agreement : Agreement forgiving near environment other formula.fields formula.operations) :
    Outcome.Alike forgiving near (formula.evaluate environment) (formula.evaluate other) := by
  cases formula with
  | literal value => exact .ok (.same value)
  | field path default => exact agreement.reads path List.mem_cons_self default
  | arithmetic op operands =>
      have operation := agreement.respects op List.mem_cons_self
      have operands := evaluate_each_related nearness operands
        ⟨agreement.reads, fun op member => agreement.respects op (List.mem_cons_of_mem _ member)⟩
      exact .map (Outcome.arithmetic_related nearness op operation operands) fun _ _ => .number
  | compare comparison left right =>
      have first := evaluate_related nearness left agreement.left
      have second := evaluate_related nearness right agreement.right
      refine .bind first fun a b lefts => .bind second fun c d rights => ?_
      rw [Scalar.near_compare nearness comparison lefts rights]
      exact .ok (.same _)
  | all operands =>
      have operands := evaluate_each_related nearness operands agreement
      exact Outcome.all_of_related nearness operands _ _ (.same _)
  | any operands =>
      have operands := evaluate_each_related nearness operands agreement
      exact Outcome.any_of_related nearness operands _ _ (.same _)
  | not operand =>
      refine .bind (evaluate_related nearness operand agreement) fun a b values => ?_
      rw [Scalar.near_truthy nearness values]
      exact .ok (.same _)
  | truth operand =>
      refine .bind (evaluate_related nearness operand agreement) fun a b values => ?_
      rw [Scalar.near_truthy nearness values]
      exact .ok (.same _)
  | choose branches otherwise =>
      cases otherwise with
      | none =>
          exact Outcome.choice_related nearness (.ok (.same _))
            (evaluate_branches_related nearness branches agreement)
      | some otherwise =>
          have last := evaluate_related nearness otherwise agreement.right
          have earlier := evaluate_branches_related nearness branches agreement.left
          exact Outcome.choice_related nearness last earlier
  | among needle candidates =>
      have first := evaluate_related nearness needle agreement.left
      have others := evaluate_each_related nearness candidates agreement.right
      refine .bind first fun a b needles => ?_
      refine .bind (Outcome.among_of_related nearness needles others) fun c d found => ?_
      rw [found]
      exact .ok (.same _)
  | contains haystack needle =>
      have first := evaluate_related nearness haystack agreement.left
      have second := evaluate_related nearness needle agreement.right
      refine .bind first fun a b wholes => .bind second fun c d parts => ?_
      rw [Scalar.near_contains_text wholes parts]
      exact .ok (.same _)

theorem evaluate_each_related (nearness : Nearness near) (formulas : List Formula)
    (agreement : Agreement forgiving near environment other (fieldsEach formulas)
      (operationsEach formulas)) :
    List.Forall₂ (Outcome.Alike forgiving near) (evaluateEach environment formulas)
      (evaluateEach other formulas) := by
  cases formulas with
  | nil => exact .nil
  | cons formula rest =>
      have first := evaluate_related nearness formula agreement.left
      have later := evaluate_each_related nearness rest agreement.right
      exact .cons first later

theorem evaluate_branches_related (nearness : Nearness near) (branches : List (Formula × Formula))
    (agreement : Agreement forgiving near environment other (fieldsBranches branches)
      (operationsBranches branches)) :
    List.Forall₂
      (fun a b => Outcome.Alike forgiving near a.1 b.1 ∧ Outcome.Alike forgiving near a.2 b.2)
      (evaluateBranches environment branches) (evaluateBranches other branches) := by
  cases branches with
  | nil => exact .nil
  | cons branch rest =>
      obtain ⟨condition, consequence⟩ := branch
      have first := evaluate_related nearness condition agreement.left.left
      have second := evaluate_related nearness consequence agreement.left.right
      have later := evaluate_branches_related nearness rest agreement.right
      exact .cons ⟨first, second⟩ later

end

end

end Formula

theorem nearness_eq : Nearness Eq := ⟨fun _ => rfl, fun _ _ same => congrArg Decimal.value same⟩

theorem Keeps.eq (operation : Decimal → Decimal → Option Decimal) : Keeps Eq operation := by
  intro a b c d first second
  rw [first, second]
  cases operation b d with
  | none => exact .none
  | some result => exact .some rfl

theorem Arithmetic.respects_eq (op : Arithmetic) : op.Respects Eq := by
  cases op with
  | add | multiply | divide | remainder => exact Keeps.eq _
  | subtract => exact ⟨fun a b same => congrArg Decimal.neg same, Keeps.eq _⟩
  | least | greatest =>
      intro a b c d first second
      rw [first, second]

def SameValue (a b : Decimal) : Prop := a.value = b.value

theorem nearness_same_value : Nearness SameValue := ⟨fun _ => rfl, fun _ _ same => same⟩

theorem SameValue.rel_iff (left right : Option Decimal) :
    Option.Rel SameValue left right ↔ left.map Decimal.value = right.map Decimal.value := by
  cases left <;> cases right <;> simp [Option.rel_some_some, SameValue]

-- The remainder is left out: its value depends on the scales of its operands.
theorem Arithmetic.respects_same_value (op : Arithmetic) (exact : op ≠ .remainder) :
    op.Respects SameValue := by
  cases op with
  | add =>
      intro a b c d first second
      rw [SameValue.rel_iff, Decimal.value_add?, Decimal.value_add?, first, second]
  | subtract =>
      constructor
      · intro a b same
        rw [SameValue, Decimal.value_neg, Decimal.value_neg, same]
      · intro a b c d first second
        rw [SameValue.rel_iff, Decimal.value_sub?, Decimal.value_sub?, first, second]
  | multiply =>
      intro a b c d first second
      rw [SameValue.rel_iff, Decimal.value_mul?, Decimal.value_mul?, first, second]
  | divide =>
      intro a b c d first second
      rw [SameValue.rel_iff]
      by_cases zero : c.value = 0
      · have alsoZero : d.value = 0 := second ▸ zero
        rw [Decimal.div?, if_pos ((Decimal.is_zero_iff c).mpr zero), Decimal.div?,
          if_pos ((Decimal.is_zero_iff d).mpr alsoZero)]
      · have alsoNonzero : d.value ≠ 0 := fun same => zero (second.trans same)
        rw [Decimal.value_div? a c zero, Decimal.value_div? b d alsoNonzero, first, second]
  | remainder => exact absurd rfl exact
  | least =>
      intro a b c d first second
      rw [SameValue, Decimal.value_least, Decimal.value_least, first, second]
  | greatest =>
      intro a b c d first second
      rw [SameValue, Decimal.value_greatest, Decimal.value_greatest, first, second]

end Tariff
