import Tariff.Scalar

set_option autoImplicit false

namespace Tariff

inductive Arithmetic where
  | add
  | subtract
  | multiply
  | divide
  | remainder
  | least
  | greatest
deriving DecidableEq, Repr

namespace Arithmetic

def symbol : Arithmetic → String
  | .add => "+"
  | .subtract => "-"
  | .multiply => "*"
  | .divide => "/"
  | .remainder => "%"
  | .least => "min"
  | .greatest => "max"

def every : List Arithmetic :=
  [.add, .subtract, .multiply, .divide, .remainder, .least, .greatest]

def ofSymbol? (text : String) : Option Arithmetic := every.find? fun op => op.symbol == text

def Accepts : Arithmetic → Nat → Prop
  | .add, count | .multiply, count | .least, count | .greatest, count => 1 ≤ count
  | .subtract, count => count = 1 ∨ count = 2
  | .divide, count | .remainder, count => count = 2

instance (op : Arithmetic) (count : Nat) : Decidable (op.Accepts count) := by
  cases op <;> unfold Accepts <;> infer_instance

def flattens : Arithmetic → Bool
  | .add | .multiply => true
  | _ => false

end Arithmetic

namespace Comparison

def every : List Comparison :=
  [.equal, .unequal, .identical, .distinct, .above, .atLeast, .below, .atMost]

def ofSymbol? (text : String) : Option Comparison := every.find? fun c => c.symbol == text

end Comparison

inductive Formula where
  | literal (value : Scalar)
  | field (path : String) (default : Option Scalar)
  | arithmetic (op : Arithmetic) (operands : List Formula)
  | compare (comparison : Comparison) (left right : Formula)
  | all (operands : List Formula)
  | any (operands : List Formula)
  | not (operand : Formula)
  | truth (operand : Formula)
  -- The first branch whose condition holds, or else the last formula.
  | choose (branches : List (Formula × Formula)) (otherwise : Option Formula)
  | among (needle : Formula) (candidates : List Formula)
  | contains (haystack needle : Formula)
deriving Repr

namespace Formula

instance : Inhabited Formula := ⟨.literal .null⟩

def combine (op : Arithmetic) (left right : Formula) : Formula :=
  match left with
  | .arithmetic inner operands =>
      if op.flattens && inner == op then .arithmetic op (operands ++ [right])
      else .arithmetic op [left, right]
  | left => .arithmetic op [left, right]

instance : Add Formula := ⟨combine .add⟩
instance : Sub Formula := ⟨combine .subtract⟩
instance : Mul Formula := ⟨combine .multiply⟩
instance : Div Formula := ⟨combine .divide⟩
instance : Mod Formula := ⟨combine .remainder⟩
instance : Neg Formula := ⟨fun operand => .arithmetic .subtract [operand]⟩

def both : Formula → Formula → Formula
  | .all operands, right => .all (operands ++ [right])
  | left, right => .all [left, right]

def either : Formula → Formula → Formula
  | .any operands, right => .any (operands ++ [right])
  | left, right => .any [left, right]

def sumRoot : String := "campers"

def sumOf (rule : String) : Formula := .field (sumRoot ++ "." ++ rule) none

def ifElse (condition consequence otherwise : Formula) : Formula :=
  .choose [(condition, consequence)] (some otherwise)

mutual

def fields : Formula → List String
  | .literal _ => []
  | .field path _ => [path]
  | .arithmetic _ operands => fieldsEach operands
  | .compare _ left right => left.fields ++ right.fields
  | .all operands => fieldsEach operands
  | .any operands => fieldsEach operands
  | .not operand => operand.fields
  | .truth operand => operand.fields
  | .choose branches none => fieldsBranches branches
  | .choose branches (some otherwise) => fieldsBranches branches ++ otherwise.fields
  | .among needle candidates => needle.fields ++ fieldsEach candidates
  | .contains haystack needle => haystack.fields ++ needle.fields

def fieldsEach : List Formula → List String
  | [] => []
  | formula :: rest => formula.fields ++ fieldsEach rest

def fieldsBranches : List (Formula × Formula) → List String
  | [] => []
  | (condition, consequence) :: rest =>
      condition.fields ++ consequence.fields ++ fieldsBranches rest

end

def sameDefault : Option Scalar → Option Scalar → Bool
  | none, none => true
  | some a, some b => a.same b
  | _, _ => false

mutual

-- The same tree, numbers by value.
def same : Formula → Formula → Bool
  | .literal a, .literal b => a.same b
  | .field path default, .field other fallback => path == other && sameDefault default fallback
  | .arithmetic op a, .arithmetic other b => op == other && sameEach a b
  | .compare c a b, .compare other a' b' => c == other && a.same a' && b.same b'
  | .all a, .all b => sameEach a b
  | .any a, .any b => sameEach a b
  | .not a, .not b => a.same b
  | .truth a, .truth b => a.same b
  | .choose a none, .choose b none => sameBranches a b
  | .choose a (some x), .choose b (some y) => sameBranches a b && x.same y
  | .among a candidates, .among b others => a.same b && sameEach candidates others
  | .contains a b, .contains a' b' => a.same a' && b.same b'
  | _, _ => false

def sameEach : List Formula → List Formula → Bool
  | [], [] => true
  | a :: rest, b :: others => a.same b && sameEach rest others
  | _, _ => false

def sameBranches : List (Formula × Formula) → List (Formula × Formula) → Bool
  | [], [] => true
  | (a, b) :: rest, (a', b') :: others => a.same a' && b.same b' && sameBranches rest others
  | _, _ => false

end

end Formula

end Tariff
