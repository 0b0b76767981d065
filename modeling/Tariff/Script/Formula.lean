import Tariff.Script.Token
import Tariff.Formula.Basic

/-! From loose to tight: `or`, `and`, `not`, one comparison or `in`, sums, products, signs, and `??`
with a default behind a path. The readers of the levels are given the reader of the formulas nested in
them. -/

set_option autoImplicit false

namespace Tariff.Script

open Reader

def comma : Reader Unit := do
  blank
  exactly ","

def closing : Reader Unit := do
  blank
  commit (exactly ")")

def branch (nested : Reader Formula) : Reader (Formula × Formula) := do
  let condition ← commit nested
  blank
  expecting "then" (commit (keyword "then"))
  let consequence ← commit nested
  return (condition, consequence)

def conditional (nested : Reader Formula) : Reader Formula := do
  keyword "if"
  let first ← branch nested
  let more ← many (do
    blank
    keyword "elif"
    commit (branch nested))
  let otherwise ← optional (do
    blank
    keyword "else"
    commit nested)
  return .choose (first :: more) otherwise

def callStart (word : String) : Reader Unit := do
  keyword word
  blank
  exactly "("

def sumCall : Reader Formula := do
  callStart "sum"
  let rule ← expecting "camper rule name" (commit (do
    blank
    name))
  closing
  return .sumOf rule

def truthCall (nested : Reader Formula) : Reader Formula := do
  callStart "bool"
  let operand ← commit nested
  closing
  return .truth operand

def extremeCall (op : Arithmetic) (nested : Reader Formula) : Reader Formula := do
  callStart op.symbol
  let operands ← commit (separated nested comma)
  closing
  return .arithmetic op operands

def call (nested : Reader Formula) : Reader Formula :=
  extremeCall .least nested <|> extremeCall .greatest nested <|> sumCall <|> truthCall nested

def parenthesis (nested : Reader Formula) : Reader Formula := do
  exactly "("
  let inner ← nested
  closing
  return inner

def primary (nested : Reader Formula) : Reader Formula := do
  blank
  expecting "expression"
    (parenthesis nested <|> conditional nested <|> call nested
      <|> (do return .literal (← literal)) <|> (do return .field (← path) none))

def withDefault (default : Scalar) : Formula → Reader Formula
  | .field path none => return .field path (some default)
  | _ => stop

def defaulted (nested : Reader Formula) : Reader Formula := do
  let formula ← primary nested
  match ← optional (do blank; exactly "??") with
  | some () => withDefault (← commit signedLiteral) formula
  | none => return formula

-- A minus sign in front of a number is taken into it.
def applySign (sign : Char) (operand : Formula) : Formula :=
  if sign = '-' then
    match operand with
    | .literal (.number value) => .literal (.number value.neg)
    | operand => -operand
  else .arithmetic .add [operand]

def isSign (c : Char) : Bool := c == '-' || c == '+'

def signed (nested : Reader Formula) : Reader Formula := do
  blank
  let signs ← many (do
    let sign ← one isSign
    blank
    return sign)
  let operand ← if signs.isEmpty then defaulted nested else commit (defaulted nested)
  return signs.foldr applySign operand

def operationOf (c : Char) : Arithmetic :=
  if c = '+' then .add
  else if c = '-' then .subtract
  else if c = '*' then .multiply
  else if c = '/' then .divide
  else .remainder

def chain (signs : Char → Bool) (operand : Reader Formula) : Reader Formula := do
  let first ← operand
  let more ← many (do
    blank
    let sign ← one signs
    let right ← commit operand
    return (sign, right))
  return more.foldl (fun left (sign, right) => Formula.combine (operationOf sign) left right) first

def isProductSign (c : Char) : Bool := c == '*' || c == '/' || c == '%'

def product (nested : Reader Formula) : Reader Formula := chain isProductSign (signed nested)

def sum (nested : Reader Formula) : Reader Formula := chain isSign (product nested)

def symbol (comparison : Comparison) : Reader Comparison := do
  exactly comparison.symbol
  return comparison

-- A longer symbol is tried before one that it starts with.
def comparisonSymbol : Reader Comparison :=
  symbol .identical <|> symbol .distinct <|> symbol .equal <|> symbol .unequal
    <|> symbol .atLeast <|> symbol .above <|> symbol .atMost <|> symbol .below

def candidates (nested : Reader Formula) : Reader (List Formula) := do
  exactly "["
  let formulas ← separatedOrNone nested comma
  blank
  exactly "]"
  return formulas

def container (nested : Reader Formula) (needle : Formula) : Reader Formula :=
  (do return .among needle (← candidates nested))
    <|> (do return .contains (← sum nested) needle)

def comparison (nested : Reader Formula) : Reader Formula := do
  let left ← sum nested
  match ← optional (do blank; comparisonSymbol) with
  | some comparison => return .compare comparison left (← commit (sum nested))
  | none =>
      match ← optional (do blank; keyword "in") with
      | some () =>
          blank
          commit (container nested left)
      | none => return left

def eitherCase (lower upper : String) : Reader Unit := keyword lower <|> keyword upper

def negated (nested : Reader Formula) : Reader Formula := do
  blank
  let nots ← many (do
    eitherCase "not" "NOT"
    blank)
  let operand ← if nots.isEmpty then comparison nested else commit (comparison nested)
  return nots.foldr (fun _ operand => .not operand) operand

def joined (lower upper : String) (build : List Formula → Formula) (operand : Reader Formula) :
    Reader Formula := do
  let first ← operand
  let more ← many (do
    blank
    eitherCase lower upper
    commit operand)
  if more.isEmpty then return first else return build (first :: more)

def conjunction (nested : Reader Formula) : Reader Formula :=
  joined "and" "AND" .all (negated nested)

def disjunction (nested : Reader Formula) : Reader Formula :=
  joined "or" "OR" .any (conjunction nested)

def formulaWithin : Nat → Reader Formula
  | 0 => miss
  | depth + 1 => do
      blank
      disjunction (formulaWithin depth)

-- A formula. A nested one stands behind a character at least, so the length of the text is depth
-- enough.
def formula : Reader Formula := fun text => formulaWithin (text.length + 1) text

end Tariff.Script
