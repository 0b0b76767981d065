import Tariff.Formula.Evaluation
import Tariff.Proofs.Decimal.Nearest

set_option autoImplicit false

namespace Tariff

-- A first step from the start leaves a number that all further steps take as they take that one.
def Absorbs (step : Decimal → Decimal → Option Decimal) (start : Decimal) : Prop :=
  ∀ number, ∃ first, step start number = some first ∧ ∀ next, step first next = step number next

theorem Absorbs.add : Absorbs Decimal.add? .zero := fun number => ⟨number, rfl, fun _ => rfl⟩

theorem Decimal.fit?_self (d : Decimal) : fit? d.negative d.mantissa d.scale = some d := by
  have kept : ofParts? d.negative (roundQuotient .toEven d.mantissa (tenTo 0)) (d.scale - 0) =
      some d := by
    rw [ten_to_zero, round_quotient_one, Nat.sub_zero, ofParts?, dif_pos ⟨d.mantissa_le, d.scale_le⟩]
  rw [fit?, List.range_succ_eq_map, List.findSome?_cons, kept]

theorem Decimal.one_mul? {d : Decimal} (nonzero : d.isZero = false) : one.mul? d = some d := by
  have product : fit? (one.negative != d.negative) (one.mantissa * d.mantissa)
      (one.scale + d.scale) = some d := by
    have kept := d.fit?_self
    simpa [one] using kept
  have short : ¬47 < one.scale + d.scale := by
    have bound : d.scale ≤ 28 := d.scale_le
    have none : one.scale = 0 := rfl
    omega
  have noZero : (one.isZero || d.isZero) = false := by rw [nonzero]; rfl
  rw [mul?, noZero, if_neg Bool.false_ne_true]
  dsimp only
  rw [product, if_neg short, Option.map_some, nonzero, if_neg Bool.false_ne_true, ite_self]

theorem Decimal.zero_mul? {d : Decimal} (isZero : d.isZero = true) (next : Decimal) :
    d.mul? next = some zero := by
  rw [mul?, isZero, Bool.true_or, if_pos rfl]

theorem Absorbs.mul : Absorbs Decimal.mul? .one := by
  intro number
  cases zero : number.isZero with
  | true =>
      refine ⟨.zero, ?_, fun next => ?_⟩
      · rw [Decimal.mul?, zero, Bool.or_true, if_pos rfl]
      · rw [Decimal.zero_mul? rfl, Decimal.zero_mul? zero]
  | false => exact ⟨number, Decimal.one_mul? zero, fun _ => rfl⟩

namespace Outcome

variable {op : Arithmetic} {step : Decimal → Decimal → Option Decimal} {start : Decimal}

section

variable {total n next : Decimal} {operand : Outcome} (rest : List Outcome)

theorem accumulate_failed {failure : Failure} (failed : operand.number = .error failure) :
    accumulate op step total (operand :: rest) = .error failure := by
  rw [accumulate, failed]
  rfl

theorem accumulate_overflow (number : operand.number = .ok n) (overflow : step total n = none) :
    accumulate op step total (operand :: rest) = .error (.overflow op) := by
  rw [accumulate, number]
  dsimp only [bind, Except.bind]
  rw [overflow]
  rfl

theorem accumulate_next (number : operand.number = .ok n) (made : step total n = some next) :
    accumulate op step total (operand :: rest) = accumulate op step next rest := by
  rw [accumulate, number]
  dsimp only [bind, Except.bind]
  rw [made]

end

theorem accumulate_append (total : Decimal) (left right : List Outcome) :
    accumulate op step total (left ++ right) =
      accumulate op step total left >>= fun total => accumulate op step total right := by
  induction left generalizing total with
  | nil => rfl
  | cons operand rest ih =>
      rw [List.cons_append]
      cases number : operand.number with
      | error failure =>
          rw [accumulate_failed _ number, accumulate_failed _ number]
          rfl
      | ok n =>
          cases made : step total n with
          | none =>
              rw [accumulate_overflow _ number made, accumulate_overflow _ number made]
              rfl
          | some next => rw [accumulate_next _ number made, accumulate_next _ number made, ih]

theorem accumulate_nested (absorbs : Absorbs step start) (left : List Outcome) (next : Outcome)
    (right : List Outcome) :
    accumulate op step start ((accumulate op step start left).map .number :: next :: right) =
      accumulate op step start (left ++ next :: right) := by
  rw [accumulate_append]
  cases accumulate op step start left with
  | error failure => rfl
  | ok total =>
      obtain ⟨first, made, same⟩ := absorbs total
      change accumulate op step start (.ok (.number total) :: next :: right) =
        accumulate op step total (next :: right)
      rw [accumulate_next _ rfl made, accumulate, accumulate]
      simp only [same]

-- A walk along operands, up to the first one whose value does not let it go on.
structure Walks (goesOn : Scalar → Bool) (walk : Scalar → List Outcome → Outcome) : Prop where
  done : ∀ last, walk last [] = .ok last
  next : ∀ last operand rest, walk last (operand :: rest) =
    operand >>= fun value => if goesOn value then walk value rest else .ok value

theorem Walks.all : Walks Scalar.truthy allOf := ⟨fun _ => rfl, fun _ _ _ => rfl⟩

theorem Walks.any : Walks (fun value => !value.truthy) anyOf where
  done _ := rfl
  next last operand rest := by
    cases operand with
    | error failure => rfl
    | ok value =>
        by_cases holds : value.truthy = true
        · simp [anyOf, holds, bind, pure, Except.bind, Except.pure]
        · simp [anyOf, holds, bind, Except.bind]

section

variable {goesOn : Scalar → Bool} {walk : Scalar → List Outcome → Outcome} (walks : Walks goesOn walk)

include walks

theorem Walks.append {last : Scalar} (goes : goesOn last = true) (left right : List Outcome) :
    walk last (left ++ right) =
      walk last left >>= fun value => if goesOn value then walk value right else .ok value := by
  induction left generalizing last with
  | nil => simp [walks.done, goes, bind, Except.bind]
  | cons operand rest ih =>
      rw [List.cons_append, walks.next, walks.next]
      cases operand with
      | error failure => rfl
      | ok value =>
          by_cases next : goesOn value = true
          · simpa [next, bind, Except.bind] using ih next
          · simp [next, bind, Except.bind]

theorem Walks.nested (last : Scalar) (goes : goesOn last = true) (left right : List Outcome) :
    walk last (walk last left :: right) = walk last (left ++ right) := by
  rw [walks.next, walks.append goes]

theorem Walks.single (last : Scalar) (outcome : Outcome) :
    walk last [outcome] = outcome := by
  rw [walks.next]
  cases outcome with
  | error failure => rfl
  | ok value => by_cases next : goesOn value = true <;> simp [walks.done, next, bind, Except.bind]

end

end Outcome

namespace Formula

variable (environment : Environment)

theorem evaluate_each_append (left right : List Formula) :
    evaluateEach environment (left ++ right) =
      evaluateEach environment left ++ evaluateEach environment right := by
  rw [evaluate_each_eq_map, evaluate_each_eq_map, evaluate_each_eq_map, List.map_append]

section

variable {op : Arithmetic} {step : Decimal → Decimal → Option Decimal} {start : Decimal}
variable (folds : ∀ operands, Outcome.arithmetic op operands =
  Outcome.accumulate op step start operands) (absorbs : Absorbs step start)

include folds absorbs

theorem evaluate_combine (left right : Formula) :
    (combine op left right).evaluate environment =
      (Outcome.accumulate op step start
        [left.evaluate environment, right.evaluate environment]).map .number := by
  unfold combine
  split
  · rename_i inner operands
    split
    · rename_i flat
      rw [Bool.and_eq_true, beq_iff_eq] at flat
      rw [flat.2, evaluate, folds, evaluate_each_append, evaluate, folds,
        Outcome.accumulate_nested absorbs]
      rfl
    · rw [evaluate, folds]
      rfl
  · rw [evaluate, folds]
    rfl

end

theorem evaluate_both (left right : Formula) :
    (both left right).evaluate environment = (Formula.all [left, right]).evaluate environment := by
  cases left with
  | all operands =>
      have nested := Outcome.Walks.all.nested (.bool true) rfl
        (evaluateEach environment operands) [right.evaluate environment]
      simpa [both, evaluate, evaluateEach, evaluate_each_append] using nested.symm
  | _ => rfl

theorem evaluate_either (left right : Formula) :
    (either left right).evaluate environment = (Formula.any [left, right]).evaluate environment := by
  cases left with
  | any operands =>
      have nested := Outcome.Walks.any.nested (.bool false) rfl
        (evaluateEach environment operands) [right.evaluate environment]
      simpa [either, evaluate, evaluateEach, evaluate_each_append] using nested.symm
  | _ => rfl

theorem joined_formulas_keep_meaning (left right : Formula) (environment : Environment) :
    (left + right).evaluate environment = (arithmetic .add [left, right]).evaluate environment ∧
      (left * right).evaluate environment =
        (arithmetic .multiply [left, right]).evaluate environment ∧
      (left.both right).evaluate environment = (Formula.all [left, right]).evaluate environment ∧
      (left.either right).evaluate environment =
        (Formula.any [left, right]).evaluate environment := by
  have sum : (left + right).evaluate environment = (arithmetic .add [left, right]).evaluate environment :=
    evaluate_combine environment (fun _ => rfl) .add left right
  have product : (left * right).evaluate environment =
      (arithmetic .multiply [left, right]).evaluate environment :=
    evaluate_combine environment (fun _ => rfl) .mul left right
  exact ⟨sum, product, evaluate_both environment left right, evaluate_either environment left right⟩

end Formula

end Tariff
