import Tariff.Decimal.Remainder
import Tariff.Environment
import Tariff.Formula.Basic

/-! An operation looks at the outcomes of its operands in order, at no more of them than it needs. A
failure that is looked at is the failure of the whole. -/

set_option autoImplicit false

namespace Tariff

inductive Failure where
  | divisionByZero
  | notNumeric (value : Scalar)
  | overflow (op : Arithmetic)
  | noOperands (op : Arithmetic)
  | unavailable (path : String)
deriving DecidableEq, Repr

def Failure.message : Failure → String
  | .divisionByZero => "division by zero"
  | .notNumeric value => "value " ++ value.render ++ " is not numeric"
  | .overflow op => "arithmetic overflow in '" ++ op.symbol ++ "'"
  | .noOperands op => "'" ++ op.symbol ++ "' needs at least one argument"
  | .unavailable path => "'" ++ path ++ "' is unavailable"

abbrev Outcome := Except Failure Scalar

namespace Outcome

def number : Outcome → Except Failure Decimal
  | .error failure => .error failure
  | .ok value =>
      match value.number? with
      | some n => .ok n
      | none => .error (.notNumeric value)

def accumulate (op : Arithmetic) (step : Decimal → Decimal → Option Decimal) (total : Decimal) :
    List Outcome → Except Failure Decimal
  | [] => .ok total
  | operand :: rest => do
      let n ← operand.number
      match step total n with
      | some next => accumulate op step next rest
      | none => throw (.overflow op)

def pickOf (pick : Decimal → Decimal → Decimal) (best : Decimal) :
    List Outcome → Except Failure Decimal
  | [] => .ok best
  | operand :: rest => do
      let n ← operand.number
      pickOf pick (pick best n) rest

def extreme (op : Arithmetic) (pick : Decimal → Decimal → Decimal) :
    List Outcome → Except Failure Decimal
  | [] => .error (.noOperands op)
  | operand :: rest => do
      let n ← operand.number
      pickOf pick n rest

def orOverflow (op : Arithmetic) : Option Decimal → Except Failure Decimal
  | some n => .ok n
  | none => .error (.overflow op)

-- Both numbers are needed before the divisor is looked at.
def divided (op : Arithmetic) (quotient : Decimal → Decimal → Option Decimal)
    (left right : Outcome) : Except Failure Decimal := do
  let a ← left.number
  let b ← right.number
  if b.isZero then throw .divisionByZero
  orOverflow op (quotient a b)

def subtracted (left right : Outcome) : Except Failure Decimal := do
  let a ← left.number
  let b ← right.number
  orOverflow .subtract (a.sub? b)

def arithmetic (op : Arithmetic) (operands : List Outcome) : Except Failure Decimal :=
  match op, operands with
  | .add, operands => accumulate .add Decimal.add? .zero operands
  | .multiply, operands => accumulate .multiply Decimal.mul? .one operands
  | .subtract, [operand] => operand.number.map Decimal.neg
  | .subtract, [left, right] => subtracted left right
  | .divide, [left, right] => divided .divide Decimal.div? left right
  | .remainder, [left, right] => divided .remainder Decimal.rem? left right
  | .least, operands => extreme .least Decimal.least operands
  | .greatest, operands => extreme .greatest Decimal.greatest operands
  | op, _ => .error (.noOperands op)

def allOf (last : Scalar) : List Outcome → Outcome
  | [] => .ok last
  | operand :: rest => do
      let value ← operand
      if value.truthy then allOf value rest else return value

def anyOf (last : Scalar) : List Outcome → Outcome
  | [] => .ok last
  | operand :: rest => do
      let value ← operand
      if value.truthy then return value else anyOf value rest

def choice (otherwise : Outcome) : List (Outcome × Outcome) → Outcome
  | [] => otherwise
  | (condition, consequence) :: rest => do
      let value ← condition
      if value.truthy then consequence else choice otherwise rest

def amongOf (needle : Scalar) : List Outcome → Except Failure Bool
  | [] => .ok false
  | operand :: rest => do
      let value ← operand
      if needle.alike value then return true else amongOf needle rest

def occursIn (part : List Char) : List Char → Bool
  | [] => part.isEmpty
  | c :: rest => part.isPrefixOf (c :: rest) || occursIn part rest

def containsText : Scalar → Scalar → Bool
  | .text haystack, .text needle => occursIn needle.toList haystack.toList
  | _, _ => false

def ofLookup (path : String) (default : Option Scalar) : Lookup → Outcome
  | .found .null => .ok (default.getD .null)
  | .found value => .ok value
  | .missing => .ok (default.getD .null)
  | .unavailable => .error (.unavailable path)

end Outcome

namespace Formula

mutual

def evaluate (environment : Environment) : Formula → Outcome
  | .literal value => .ok value
  | .field path default => .ofLookup path default (environment.lookup path)
  | .arithmetic op operands =>
      (Outcome.arithmetic op (evaluateEach environment operands)).map .number
  | .compare comparison left right => do
      let a ← left.evaluate environment
      let b ← right.evaluate environment
      return .bool (a.compare comparison b)
  | .all operands => Outcome.allOf (.bool true) (evaluateEach environment operands)
  | .any operands => Outcome.anyOf (.bool false) (evaluateEach environment operands)
  | .not operand => do
      let value ← operand.evaluate environment
      return .bool !value.truthy
  | .truth operand => do
      let value ← operand.evaluate environment
      return .bool value.truthy
  | .choose branches none =>
      Outcome.choice (.ok .null) (evaluateBranches environment branches)
  | .choose branches (some otherwise) =>
      Outcome.choice (otherwise.evaluate environment) (evaluateBranches environment branches)
  | .among needle candidates => do
      let value ← needle.evaluate environment
      return .bool (← Outcome.amongOf value (evaluateEach environment candidates))
  | .contains haystack needle => do
      let whole ← haystack.evaluate environment
      let part ← needle.evaluate environment
      return .bool (Outcome.containsText whole part)

def evaluateEach (environment : Environment) : List Formula → List Outcome
  | [] => []
  | formula :: rest => formula.evaluate environment :: evaluateEach environment rest

def evaluateBranches (environment : Environment) :
    List (Formula × Formula) → List (Outcome × Outcome)
  | [] => []
  | (condition, consequence) :: rest =>
      (condition.evaluate environment, consequence.evaluate environment) ::
        evaluateBranches environment rest

end

theorem evaluate_each_eq_map (environment : Environment) (formulas : List Formula) :
    evaluateEach environment formulas = formulas.map (evaluate environment) := by
  induction formulas with
  | nil => simp [evaluateEach]
  | cons formula rest ih => simp [evaluateEach, ih]

end Formula

end Tariff
