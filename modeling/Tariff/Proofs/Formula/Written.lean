import Tariff.Formula.WellShaped

set_option autoImplicit false

namespace Tariff

-- A sign stands before one operand only if it is plus or minus.
def Arithmetic.Writes (op : Arithmetic) (count : Nat) : Prop :=
  op.Accepts count ∧ (op = .multiply → count ≠ 1)

namespace Formula

section

variable (path : String → Prop) (scalar : Scalar → Prop)

mutual

def Written : Formula → Prop
  | .literal value => scalar value
  | .field name default => path name ∧ ∀ value ∈ default, scalar value
  | .arithmetic op operands => op.Writes operands.length ∧ WrittenEach operands
  | .compare _ left right => left.Written ∧ right.Written
  | .all operands => operands ≠ [] ∧ WrittenEach operands
  | .any operands => operands ≠ [] ∧ WrittenEach operands
  | .not operand => operand.Written
  | .truth operand => operand.Written
  | .choose branches none => branches ≠ [] ∧ WrittenBranches branches
  | .choose branches (some otherwise) =>
      branches ≠ [] ∧ WrittenBranches branches ∧ otherwise.Written
  | .among needle candidates => needle.Written ∧ WrittenEach candidates
  | .contains haystack needle => haystack.Written ∧ needle.Written

def WrittenEach : List Formula → Prop
  | [] => True
  | formula :: rest => formula.Written ∧ WrittenEach rest

def WrittenBranches : List (Formula × Formula) → Prop
  | [] => True
  | (condition, consequence) :: rest =>
      condition.Written ∧ consequence.Written ∧ WrittenBranches rest

end

variable {path : String → Prop} {scalar : Scalar → Prop}

theorem written_each_iff (formulas : List Formula) :
    WrittenEach path scalar formulas ↔ ∀ formula ∈ formulas, formula.Written path scalar := by
  induction formulas with
  | nil => simp [WrittenEach]
  | cons formula rest ih => simp [WrittenEach, ih]

theorem written_branches_iff (branches : List (Formula × Formula)) :
    WrittenBranches path scalar branches ↔
      ∀ branch ∈ branches, branch.1.Written path scalar ∧ branch.2.Written path scalar := by
  induction branches with
  | nil => simp [WrittenBranches]
  | cons branch rest ih =>
      obtain ⟨condition, consequence⟩ := branch
      simp [WrittenBranches, ih, and_assoc]

end

section

variable {path narrower : String → Prop} {scalar tighter : Scalar → Prop}

mutual

theorem Written.narrow (formula : Formula) (written : formula.Written path scalar)
    (paths : ∀ name ∈ formula.fields, path name → narrower name)
    (scalars : ∀ value ∈ formula.scalars, scalar value → tighter value) :
    formula.Written narrower tighter := by
  cases formula with
  | literal value => exact scalars value (List.mem_singleton_self value) written
  | field name default =>
      refine ⟨paths name (List.mem_singleton_self name) written.1, fun value member => ?_⟩
      exact scalars value (Option.mem_toList.mpr member) (written.2 value member)
  | arithmetic op operands => exact ⟨written.1, narrow_each operands written.2 paths scalars⟩
  | compare comparison left right =>
      obtain ⟨leftPaths, rightPaths⟩ := List.forall_mem_append.mp paths
      obtain ⟨leftScalars, rightScalars⟩ := List.forall_mem_append.mp scalars
      exact ⟨narrow left written.1 leftPaths leftScalars,
        narrow right written.2 rightPaths rightScalars⟩
  | all operands => exact ⟨written.1, narrow_each operands written.2 paths scalars⟩
  | any operands => exact ⟨written.1, narrow_each operands written.2 paths scalars⟩
  | not operand => exact narrow operand written paths scalars
  | truth operand => exact narrow operand written paths scalars
  | choose branches otherwise =>
      cases otherwise with
      | none => exact ⟨written.1, narrow_branches branches written.2 paths scalars⟩
      | some otherwise =>
          obtain ⟨branchPaths, otherPaths⟩ := List.forall_mem_append.mp paths
          obtain ⟨branchScalars, otherScalars⟩ := List.forall_mem_append.mp scalars
          exact ⟨written.1, narrow_branches branches written.2.1 branchPaths branchScalars,
            narrow otherwise written.2.2 otherPaths otherScalars⟩
  | among needle candidates =>
      obtain ⟨needlePaths, otherPaths⟩ := List.forall_mem_append.mp paths
      obtain ⟨needleScalars, otherScalars⟩ := List.forall_mem_append.mp scalars
      exact ⟨narrow needle written.1 needlePaths needleScalars,
        narrow_each candidates written.2 otherPaths otherScalars⟩
  | contains haystack needle =>
      obtain ⟨leftPaths, rightPaths⟩ := List.forall_mem_append.mp paths
      obtain ⟨leftScalars, rightScalars⟩ := List.forall_mem_append.mp scalars
      exact ⟨narrow haystack written.1 leftPaths leftScalars,
        narrow needle written.2 rightPaths rightScalars⟩

theorem Written.narrow_each (formulas : List Formula) (written : WrittenEach path scalar formulas)
    (paths : ∀ name ∈ fieldsEach formulas, path name → narrower name)
    (scalars : ∀ value ∈ scalarsEach formulas, scalar value → tighter value) :
    WrittenEach narrower tighter formulas := by
  cases formulas with
  | nil => trivial
  | cons formula rest =>
      obtain ⟨ownPaths, otherPaths⟩ := List.forall_mem_append.mp paths
      obtain ⟨ownScalars, otherScalars⟩ := List.forall_mem_append.mp scalars
      exact ⟨narrow formula written.1 ownPaths ownScalars,
        narrow_each rest written.2 otherPaths otherScalars⟩

theorem Written.narrow_branches (branches : List (Formula × Formula))
    (written : WrittenBranches path scalar branches)
    (paths : ∀ name ∈ fieldsBranches branches, path name → narrower name)
    (scalars : ∀ value ∈ scalarsBranches branches, scalar value → tighter value) :
    WrittenBranches narrower tighter branches := by
  cases branches with
  | nil => trivial
  | cons branch rest =>
      obtain ⟨condition, consequence⟩ := branch
      obtain ⟨ownPaths, otherPaths⟩ := List.forall_mem_append.mp paths
      obtain ⟨ownScalars, otherScalars⟩ := List.forall_mem_append.mp scalars
      obtain ⟨conditionPaths, consequencePaths⟩ := List.forall_mem_append.mp ownPaths
      obtain ⟨conditionScalars, consequenceScalars⟩ := List.forall_mem_append.mp ownScalars
      exact ⟨narrow condition written.1 conditionPaths conditionScalars,
        narrow consequence written.2.1 consequencePaths consequenceScalars,
        narrow_branches rest written.2.2 otherPaths otherScalars⟩

end

end

section

variable {path : String → Prop} {scalar : Scalar → Prop}

mutual

theorem Written.well_shaped (named : ∀ name, path name → name ≠ "") (formula : Formula)
    (written : formula.Written path scalar) : formula.WellShaped := by
  cases formula with
  | literal value => trivial
  | field name default => exact named name written.1
  | arithmetic op operands => exact ⟨written.1.1, well_shaped_each named operands written.2⟩
  | compare comparison left right =>
      exact ⟨well_shaped named left written.1, well_shaped named right written.2⟩
  | all operands => exact ⟨written.1, well_shaped_each named operands written.2⟩
  | any operands => exact ⟨written.1, well_shaped_each named operands written.2⟩
  | not operand => exact well_shaped named operand written
  | truth operand => exact well_shaped named operand written
  | choose branches otherwise =>
      cases otherwise with
      | none => exact ⟨written.1, well_shaped_branches named branches written.2⟩
      | some otherwise =>
          exact ⟨well_shaped_branches named branches written.2.1,
            well_shaped named otherwise written.2.2⟩
  | among needle candidates =>
      exact ⟨well_shaped named needle written.1, well_shaped_each named candidates written.2⟩
  | contains haystack needle =>
      exact ⟨well_shaped named haystack written.1, well_shaped named needle written.2⟩

theorem Written.well_shaped_each (named : ∀ name, path name → name ≠ "") (formulas : List Formula)
    (written : WrittenEach path scalar formulas) : WellShapedEach formulas := by
  cases formulas with
  | nil => trivial
  | cons formula rest =>
      exact ⟨well_shaped named formula written.1, well_shaped_each named rest written.2⟩

theorem Written.well_shaped_branches (named : ∀ name, path name → name ≠ "")
    (branches : List (Formula × Formula)) (written : WrittenBranches path scalar branches) :
    WellShapedBranches branches := by
  cases branches with
  | nil => trivial
  | cons branch rest =>
      obtain ⟨condition, consequence⟩ := branch
      exact ⟨well_shaped named condition written.1, well_shaped named consequence written.2.1,
        well_shaped_branches named rest written.2.2⟩

end

end

end Formula

end Tariff
