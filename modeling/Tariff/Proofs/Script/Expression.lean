import Tariff.Formula.Printer
import Tariff.Proofs.Formula.Written
import Tariff.Proofs.Script.Token

set_option autoImplicit false

namespace Tariff.Script

-- Digits with a fraction or without, of which a decimal is read.
structure WrittenNumber where
  whole : List Char
  fraction : List Char
  value : Decimal
  numeral : Decimal.Numeral whole fraction
  plain : Decimal.plain? (Decimal.partsText whole fraction) = .ok value

def WrittenNumber.chars (number : WrittenNumber) : List Char :=
  Decimal.partsText number.whole number.fraction

inductive WrittenLiteral where
  | null
  | bool (choice : Bool)
  | text (value : String)
  | number (written : WrittenNumber)
  | negative (written : WrittenNumber)

namespace WrittenLiteral

def escaped (c : Char) : List Char := if c = '"' ∨ c = '\\' then ['\\', c] else [c]

def chars : WrittenLiteral → List Char
  | .null => Scalar.null.render.toList
  | .bool choice => (Scalar.bool choice).render.toList
  | .text value => '"' :: (value.toList.flatMap escaped ++ ['"'])
  | .number written => written.chars
  | .negative written => '-' :: ' ' :: written.chars

def value : WrittenLiteral → Scalar
  | .null => .null
  | .bool choice => .bool choice
  | .text value => .text value
  | .number written => .number written.value
  | .negative written => .number written.value.neg

end WrittenLiteral

inductive Level where
  | disjunction
  | conjunction
  | negation
  | comparison
  | sum
  | product
  | sign
  | operand
deriving DecidableEq, Repr

namespace Level

def rank : Level → Nat
  | .disjunction => 0
  | .conjunction => 1
  | .negation => 2
  | .comparison => 3
  | .sum => 4
  | .product => 5
  | .sign => 6
  | .operand => 7

def looser : Level → Level
  | .disjunction | .conjunction => .disjunction
  | .negation => .conjunction
  | .comparison => .negation
  | .sum => .comparison
  | .product => .sum
  | .sign => .product
  | .operand => .sign

end Level

def enclosed (place own : Level) (text : List Char) : List Char :=
  if place.rank ≤ own.rank then text else '(' :: ' ' :: (text ++ [' ', ')'])

inductive Operator where
  | plus
  | minus
  | times
  | divided
  | modulo
deriving DecidableEq, Repr

namespace Operator

def arithmetic : Operator → Arithmetic
  | .plus => .add
  | .minus => .subtract
  | .times => .multiply
  | .divided => .divide
  | .modulo => .remainder

def sign : Operator → Char
  | .plus => '+'
  | .minus => '-'
  | .times => '*'
  | .divided => '/'
  | .modulo => '%'

def level : Operator → Level
  | .plus | .minus => .sum
  | .times | .divided | .modulo => .product

-- The operand on the right binds tighter than the operation, the one on the left as tight.
def rightLevel : Operator → Level
  | .plus | .minus => .product
  | .times | .divided | .modulo => .sign

end Operator

inductive Expression where
  | number (written : WrittenNumber)
  | field (path : String) (isPath : IsPath path.toList) (default : Option WrittenLiteral)
  | negative (operand : Expression)
  | binary (op : Operator) (left right : Expression)
  | compare (comparison : Comparison) (left right : Expression)
  | among (needle : Expression) (candidates : List Expression)
  | contains (haystack needle : Expression)
  | not (operand : Expression)
  | all (first second : Expression) (more : List Expression)
  | any (first second : Expression) (more : List Expression)

namespace Expression

def level : Expression → Level
  | .number _ | .field _ _ _ => .operand
  | .negative _ => .sign
  | .binary op _ _ => op.level
  | .compare _ _ _ | .among _ _ | .contains _ _ => .comparison
  | .not _ => .negation
  | .all _ _ _ => .conjunction
  | .any _ _ _ => .disjunction

def listed : List (List Char) → List Char
  | [] => "[ ]".toList
  | items => '[' :: ' ' :: (Formula.joined " , " items ++ [' ', ']'])

mutual

def chars : Expression → List Char
  | .number written => written.chars
  | .field path _ none => path.toList
  | .field path _ (some default) => path.toList ++ (" ?? ".toList ++ default.chars)
  | .negative operand => '-' :: ' ' :: enclosed .sign operand.level operand.chars
  | .binary op left right =>
      enclosed op.level left.level left.chars ++
        ' ' :: op.sign :: ' ' :: enclosed op.rightLevel right.level right.chars
  | .compare comparison left right =>
      enclosed .sum left.level left.chars ++
        ' ' :: (comparison.symbol.toList ++ ' ' :: enclosed .sum right.level right.chars)
  | .among needle candidates =>
      enclosed .sum needle.level needle.chars ++
        (" in".toList ++ ' ' :: listed (charsEach .disjunction candidates))
  | .contains haystack needle =>
      enclosed .sum needle.level needle.chars ++
        (" in".toList ++ ' ' :: enclosed .sum haystack.level haystack.chars)
  | .not operand => "not ".toList ++ enclosed .negation operand.level operand.chars
  | .all first second more =>
      Formula.joined " and " (enclosed .negation first.level first.chars ::
        enclosed .negation second.level second.chars :: charsEach .negation more)
  | .any first second more =>
      Formula.joined " or " (enclosed .conjunction first.level first.chars ::
        enclosed .conjunction second.level second.chars :: charsEach .conjunction more)

def charsEach (place : Level) : List Expression → List (List Char)
  | [] => []
  | expression :: rest =>
      enclosed place expression.level expression.chars :: charsEach place rest

end

def render (expression : Expression) : String := String.ofList expression.chars

mutual

def toFormula : Expression → Formula
  | .number written => .literal (.number written.value)
  | .field path _ default => .field path (default.map WrittenLiteral.value)
  | .negative operand => .arithmetic .subtract [operand.toFormula]
  | .binary op left right => .arithmetic op.arithmetic [left.toFormula, right.toFormula]
  | .compare comparison left right => .compare comparison left.toFormula right.toFormula
  | .among needle candidates => .among needle.toFormula (toFormulaEach candidates)
  | .contains haystack needle => .contains haystack.toFormula needle.toFormula
  | .not operand => .not operand.toFormula
  | .all first second more =>
      .all (first.toFormula :: second.toFormula :: toFormulaEach more)
  | .any first second more =>
      .any (first.toFormula :: second.toFormula :: toFormulaEach more)

def toFormulaEach : List Expression → List Formula
  | [] => []
  | expression :: rest => expression.toFormula :: toFormulaEach rest

end

def placed (place : Level) (expression : Expression) : List Char :=
  enclosed place expression.level expression.chars

theorem chars_each_eq_map (place : Level) (expressions : List Expression) :
    charsEach place expressions = expressions.map (placed place) := by
  induction expressions with
  | nil => rw [charsEach, List.map_nil]
  | cons expression rest ih => rw [charsEach, ih, List.map_cons, placed]

theorem chars_negative (operand : Expression) :
    (negative operand).chars = '-' :: ' ' :: placed .sign operand := rfl

theorem chars_binary (op : Operator) (left right : Expression) :
    (binary op left right).chars =
      placed op.level left ++ ' ' :: op.sign :: ' ' :: placed op.rightLevel right := rfl

theorem chars_compare (comparison : Comparison) (left right : Expression) :
    (compare comparison left right).chars =
      placed .sum left ++ ' ' :: (comparison.symbol.toList ++ ' ' :: placed .sum right) := rfl

theorem chars_among (needle : Expression) (candidates : List Expression) :
    (among needle candidates).chars =
      placed .sum needle ++
        (" in".toList ++ ' ' :: listed (candidates.map (placed .disjunction))) := by
  rw [chars, chars_each_eq_map, placed]

theorem chars_contains (haystack needle : Expression) :
    (contains haystack needle).chars =
      placed .sum needle ++ (" in".toList ++ ' ' :: placed .sum haystack) := rfl

theorem chars_not (operand : Expression) :
    (Expression.not operand).chars = "not ".toList ++ placed .negation operand := rfl

theorem chars_all (first second : Expression) (more : List Expression) :
    (all first second more).chars =
      Formula.joined " and " ((first :: second :: more).map (placed .negation)) := by
  rw [chars, chars_each_eq_map, List.map_cons, List.map_cons, placed, placed]

theorem chars_any (first second : Expression) (more : List Expression) :
    (any first second more).chars =
      Formula.joined " or " ((first :: second :: more).map (placed .conjunction)) := by
  rw [chars, chars_each_eq_map, List.map_cons, List.map_cons, placed, placed]

theorem to_formula_each_eq_map (expressions : List Expression) :
    toFormulaEach expressions = expressions.map toFormula := by
  induction expressions with
  | nil => rw [toFormulaEach, List.map_nil]
  | cons expression rest ih => rw [toFormulaEach, ih, List.map_cons]

mutual

theorem to_formula_written (expression : Expression) :
    expression.toFormula.Written (fun path => IsPath path.toList) fun _ => True := by
  cases expression with
  | number written =>
      rw [toFormula]
      trivial
  | field path isPath default =>
      rw [toFormula]
      exact ⟨isPath, fun _ _ => trivial⟩
  | negative operand =>
      rw [toFormula]
      exact ⟨⟨.inl rfl, by simp⟩, to_formula_written operand, trivial⟩
  | binary op left right =>
      rw [toFormula]
      refine ⟨?_, to_formula_written left, to_formula_written right, trivial⟩
      cases op <;> simp [Operator.arithmetic, Arithmetic.Writes, Arithmetic.Accepts]
  | compare comparison left right =>
      rw [toFormula]
      exact ⟨to_formula_written left, to_formula_written right⟩
  | among needle candidates =>
      rw [toFormula]
      exact ⟨to_formula_written needle, to_formula_each_written candidates⟩
  | contains haystack needle =>
      rw [toFormula]
      exact ⟨to_formula_written haystack, to_formula_written needle⟩
  | not operand =>
      rw [toFormula]
      exact to_formula_written operand
  | all first second more | any first second more =>
      rw [toFormula]
      exact ⟨List.cons_ne_nil _ _, to_formula_written first, to_formula_written second,
        to_formula_each_written more⟩

theorem to_formula_each_written (expressions : List Expression) :
    Formula.WrittenEach (fun path => IsPath path.toList) (fun _ => True)
      (toFormulaEach expressions) := by
  cases expressions with
  | nil => rw [toFormulaEach]; trivial
  | cons expression rest =>
      rw [toFormulaEach]
      exact ⟨to_formula_written expression, to_formula_each_written rest⟩

end

end Expression

end Tariff.Script
