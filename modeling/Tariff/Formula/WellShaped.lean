import Tariff.Formula.Basic

set_option autoImplicit false

namespace Tariff.Formula

mutual

def WellShaped : Formula → Prop
  | .literal _ => True
  | .field path _ => path ≠ ""
  | .arithmetic op operands => op.Accepts operands.length ∧ WellShapedEach operands
  | .compare _ left right => left.WellShaped ∧ right.WellShaped
  | .all operands => operands ≠ [] ∧ WellShapedEach operands
  | .any operands => operands ≠ [] ∧ WellShapedEach operands
  | .not operand => operand.WellShaped
  | .truth operand => operand.WellShaped
  | .choose branches none => branches ≠ [] ∧ WellShapedBranches branches
  | .choose branches (some otherwise) => WellShapedBranches branches ∧ otherwise.WellShaped
  | .among needle candidates => needle.WellShaped ∧ WellShapedEach candidates
  | .contains haystack needle => haystack.WellShaped ∧ needle.WellShaped

def WellShapedEach : List Formula → Prop
  | [] => True
  | formula :: rest => formula.WellShaped ∧ WellShapedEach rest

def WellShapedBranches : List (Formula × Formula) → Prop
  | [] => True
  | (condition, consequence) :: rest =>
      condition.WellShaped ∧ consequence.WellShaped ∧ WellShapedBranches rest

end

mutual

def scalars : Formula → List Scalar
  | .literal value => [value]
  | .field _ default => default.toList
  | .arithmetic _ operands => scalarsEach operands
  | .compare _ left right => left.scalars ++ right.scalars
  | .all operands => scalarsEach operands
  | .any operands => scalarsEach operands
  | .not operand => operand.scalars
  | .truth operand => operand.scalars
  | .choose branches none => scalarsBranches branches
  | .choose branches (some otherwise) => scalarsBranches branches ++ otherwise.scalars
  | .among needle candidates => needle.scalars ++ scalarsEach candidates
  | .contains haystack needle => haystack.scalars ++ needle.scalars

def scalarsEach : List Formula → List Scalar
  | [] => []
  | formula :: rest => formula.scalars ++ scalarsEach rest

def scalarsBranches : List (Formula × Formula) → List Scalar
  | [] => []
  | (condition, consequence) :: rest =>
      condition.scalars ++ consequence.scalars ++ scalarsBranches rest

end

end Tariff.Formula
