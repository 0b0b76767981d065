import Tariff.Formula.Basic
import Tariff.Json.Text

/-! With a list as its second operand `in` looks for a member, else for a part of a text; `<` and `<=`
with three operands are two comparisons; an odd operand of `if` is taken when no condition holds. -/

set_option autoImplicit false

namespace Tariff

inductive Formula.Fault where
  | unknownOperator (op : String)
  | operandCount (op : String) (expected : String) (found : Nat)
  | operatorKeys (found : Nat)
  | invalidPath
  | notScalar (op : String)
  | unexpectedArray
  | invalidNumber (text : String)
deriving DecidableEq, Repr

def Formula.Fault.message : Formula.Fault → String
  | .unknownOperator op => "unknown operator '" ++ op ++ "'"
  | .operandCount op expected found =>
      "operator '" ++ op ++ "' expects " ++ expected ++ " argument(s), found " ++ toString found
  | .operatorKeys found =>
      "operator object must have exactly one key, found " ++ toString found
  | .invalidPath => "'var' needs a non-empty path"
  | .notScalar op => "'" ++ op ++ "' argument must be a literal scalar"
  | .unexpectedArray => "array is only allowed as the second argument of 'in'"
  | .invalidNumber text => "number " ++ text ++ " cannot be represented exactly"

def Arithmetic.expected : Arithmetic → String
  | .add | .multiply | .least | .greatest => "at least 1"
  | .subtract => "1 or 2"
  | .divide | .remainder => "2"

namespace Formula

def operator (op : String) (operands : Json) : Json := .object [(op, operands)]

def flatBranches (otherwise : List Json) : List (Json × Json) → List Json
  | [] => otherwise
  | (condition, consequence) :: rest =>
      condition :: consequence :: flatBranches otherwise rest

mutual

def toJson : Formula → Json
  | .literal value => value.toJson
  | .field path none => operator "var" (.string path)
  | .field path (some default) => operator "var" (.array [.string path, default.toJson])
  | .arithmetic op operands => operator op.symbol (.array (toJsonEach operands))
  | .compare comparison left right =>
      operator comparison.symbol (.array [left.toJson, right.toJson])
  | .all operands => operator "and" (.array (toJsonEach operands))
  | .any operands => operator "or" (.array (toJsonEach operands))
  | .not operand => operator "!" (.array [operand.toJson])
  | .truth operand => operator "!!" (.array [operand.toJson])
  | .choose branches none => operator "if" (.array (flatBranches [] (toJsonBranches branches)))
  | .choose branches (some otherwise) =>
      operator "if" (.array (flatBranches [otherwise.toJson] (toJsonBranches branches)))
  | .among needle candidates =>
      operator "in" (.array [needle.toJson, .array (toJsonEach candidates)])
  | .contains haystack needle => operator "in" (.array [needle.toJson, haystack.toJson])

def toJsonEach : List Formula → List Json
  | [] => []
  | formula :: rest => formula.toJson :: toJsonEach rest

def toJsonBranches : List (Formula × Formula) → List (Json × Json)
  | [] => []
  | (condition, consequence) :: rest =>
      (condition.toJson, consequence.toJson) :: toJsonBranches rest

end

abbrev Decoded := Except Fault Formula

def sequence : List Decoded → Except Fault (List Formula)
  | [] => .ok []
  | decoded :: rest => do
      let formula ← decoded
      let formulas ← sequence rest
      return formula :: formulas

def expectCount (op expected : String) (found : Nat) (accepted : Bool) : Except Fault Unit :=
  if accepted then .ok () else .error (.operandCount op expected found)

def pathOfJson : Json → Except Fault String
  | .string path => if path = "" then .error .invalidPath else .ok path
  | .number value => .ok (String.ofList value.text)
  | _ => .error .invalidPath

def defaultOfJson (json : Json) : Except Fault Scalar :=
  match Scalar.ofJson? json with
  | some value => .ok value
  | none => .error (.notScalar "var")

def fieldOfJson : List Json → Decoded
  | [path] => do return .field (← pathOfJson path) none
  | [path, default] => do
      let path ← pathOfJson path
      return .field path (some (← defaultOfJson default))
  | operands => .error (.operandCount "var" "1 or 2" operands.length)

def sumOfJson : List Json → Decoded
  | [.string rule] => if rule = "" then .error .invalidPath else .ok (.sumOf rule)
  | [_] => .error .invalidPath
  | operands => .error (.operandCount "sum" "1" operands.length)

-- Conditions and consequences in turn; an odd formula at the end is what is left otherwise.
def branchesOf : List Formula → List (Formula × Formula) × Option Formula
  | [] => ([], none)
  | [otherwise] => ([], some otherwise)
  | condition :: consequence :: rest =>
      let (branches, otherwise) := branchesOf rest
      ((condition, consequence) :: branches, otherwise)

def compareOf (comparison : Comparison) : List Decoded → Decoded
  | [left, right] => do return .compare comparison (← left) (← right)
  | operands => .error (.operandCount comparison.symbol "2" operands.length)

def betweenOf (comparison : Comparison) : List Decoded → Decoded
  | [left, right] => do return .compare comparison (← left) (← right)
  | [low, middle, high] => do
      let low ← low
      let middle ← middle
      let high ← high
      return .all [.compare comparison low middle, .compare comparison middle high]
  | operands => .error (.operandCount comparison.symbol "2 or 3" operands.length)

def comparisonOf (comparison : Comparison) (operands : List Decoded) : Decoded :=
  match comparison with
  | .below | .atMost => betweenOf comparison operands
  | comparison => compareOf comparison operands

def arithmeticOf (op : Arithmetic) (operands : List Decoded) : Decoded := do
  expectCount op.symbol op.expected operands.length (op.Accepts operands.length)
  return .arithmetic op (← sequence operands)

def unaryOf (op : String) (build : Formula → Formula) : List Decoded → Decoded
  | [operand] => operand.map build
  | operands => .error (.operandCount op "1" operands.length)

def manyOf (op : String) (build : List Formula → Formula) (operands : List Decoded) : Decoded := do
  expectCount op "at least 1" operands.length (1 ≤ operands.length)
  return build (← sequence operands)

def chooseOf (op : String) (operands : List Decoded) : Decoded :=
  manyOf op (fun formulas => .choose (branchesOf formulas).1 (branchesOf formulas).2) operands

def inOf (candidates : Option (List Decoded)) : List Decoded → Decoded
  | [needle, haystack] => do
      let needle ← needle
      match candidates with
      | some candidates => return .among needle (← sequence candidates)
      | none => return .contains (← haystack) needle
  | operands => .error (.operandCount "in" "2" operands.length)

def operation (op : String) (raw : List Json) (operands : List Decoded)
    (candidates : Option (List Decoded)) : Decoded :=
  match Arithmetic.ofSymbol? op, Comparison.ofSymbol? op with
  | some known, _ => arithmeticOf known operands
  | none, some known => comparisonOf known operands
  | none, none =>
      if op = "var" then fieldOfJson raw
      else if op = "sum" then sumOfJson raw
      else if op = "and" then manyOf op .all operands
      else if op = "or" then manyOf op .any operands
      else if op = "!" then unaryOf op .not operands
      else if op = "!!" then unaryOf op .truth operands
      else if op = "if" then chooseOf op operands
      else if op = "?:" then chooseOf op operands
      else if op = "in" then inOf candidates operands
      else .error (.unknownOperator op)

def literalOfJson (json : Json) : Decoded :=
  match Scalar.ofJson? json with
  | some value => .ok (.literal value)
  | none => .error (.invalidNumber json.text)

mutual

def ofJson : Json → Decoded
  | .array _ => .error .unexpectedArray
  | .object [(op, .array operands)] =>
      operation op operands (ofJsonEach operands) (candidatesOf operands)
  | .object [(op, operand)] => operation op [operand] [ofJson operand] none
  | .object members => .error (.operatorKeys members.length)
  | scalar => literalOfJson scalar

def ofJsonEach : List Json → List Decoded
  | [] => []
  | json :: rest => ofJson json :: ofJsonEach rest

def candidatesOf : List Json → Option (List Decoded)
  | [_, .array items] => some (ofJsonEach items)
  | _ => none

end

end Formula

end Tariff
