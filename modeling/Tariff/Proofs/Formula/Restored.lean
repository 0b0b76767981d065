import Mathlib.Data.List.Forall2
import Tariff.Formula.Encoding
import Tariff.Formula.WellShaped
import Tariff.Proofs.Json.Number

set_option autoImplicit false

namespace Tariff

def Scalar.Readable (scalar : Scalar) : Prop := ∃ read, Scalar.ofJson? scalar.toJson = some read

def Scalar.ReadsBack (scalar : Scalar) : Prop :=
  ∃ read, Scalar.ofJson? scalar.toJson = some read ∧ read.same scalar = true

theorem Scalar.reads_back {scalar : Scalar}
    (numbers : ∀ number, scalar = .number number → scalar.ReadsBack) : scalar.ReadsBack := by
  cases scalar with
  | number number => exact numbers number rfl
  | null => exact ⟨.null, rfl, rfl⟩
  | bool value => exact ⟨.bool value, rfl, Scalar.same_refl _⟩
  | text value => exact ⟨.text value, rfl, Scalar.same_refl _⟩

theorem Arithmetic.of_symbol?_symbol (op : Arithmetic) :
    Arithmetic.ofSymbol? op.symbol = some op := by
  cases op <;> rfl

theorem Comparison.of_symbol?_symbol (comparison : Comparison) :
    Arithmetic.ofSymbol? comparison.symbol = none ∧
      Comparison.ofSymbol? comparison.symbol = some comparison := by
  cases comparison <;> exact ⟨rfl, rfl⟩

namespace Formula

inductive Restores {α : Type} (good : Prop) (alike : α → Prop) : Except Fault α → Prop
  | read {value : α} (isGood : good) (same : alike value) : Restores good alike (.ok value)
  | refused (bad : ¬good) (fault : Fault) : Restores good alike (.error fault)

namespace Restores

variable {α β : Type} {good further : Prop} {alike : α → Prop} {likewise : β → Prop}

theorem bind {decoded : Except Fault α} {next : α → Except Fault β}
    (first : Restores good alike decoded)
    (second : ∀ value, alike value → Restores further likewise (next value)) :
    Restores (good ∧ further) likewise (decoded >>= next) := by
  cases first with
  | refused bad fault => exact .refused (fun both => bad both.1) fault
  | @read value isGood same =>
      have later := second value same
      change Restores _ _ (next value)
      generalize next value = result at later ⊢
      cases later with
      | read isAlsoGood alsoSame => exact .read ⟨isGood, isAlsoGood⟩ alsoSame
      | refused bad fault => exact .refused (fun both => bad both.2) fault

theorem map {decoded : Except Fault α} {next : α → β} (first : Restores good alike decoded)
    (keeps : ∀ value, alike value → likewise (next value)) :
    Restores good likewise (decoded >>= fun value => pure (next value)) := by
  cases first with
  | read isGood same => exact .read isGood (keeps _ same)
  | refused bad fault => exact .refused bad fault

theorem result {decoded : Except Fault α} (restores : Restores good alike decoded) :
    (good → ∃ value, decoded = .ok value ∧ alike value) ∧
      (¬good → ∃ fault, decoded = .error fault) := by
  cases restores with
  | read isGood same => exact ⟨fun _ => ⟨_, rfl, same⟩, fun bad => absurd isGood bad⟩
  | refused bad fault => exact ⟨fun isGood => absurd isGood bad, fun _ => ⟨fault, rfl⟩⟩

end Restores

def Sendable (formula : Formula) : Prop :=
  formula.WellShaped ∧ ∀ scalar ∈ formula.scalars, scalar.Readable

def SendableEach (formulas : List Formula) : Prop :=
  WellShapedEach formulas ∧ ∀ scalar ∈ scalarsEach formulas, scalar.Readable

abbrev ReadsBack (scalars : List Scalar) : Prop := ∀ scalar ∈ scalars, scalar.ReadsBack

theorem sendable_pair {first second : Prop} {scalars others : List Scalar} :
    ((first ∧ second) ∧ ∀ scalar ∈ scalars ++ others, scalar.Readable) ↔
      (first ∧ ∀ scalar ∈ scalars, scalar.Readable) ∧
        (second ∧ ∀ scalar ∈ others, scalar.Readable) := by
  rw [List.forall_mem_append, and_and_and_comm]

theorem sendable_compare (comparison : Comparison) (left right : Formula) :
    (Formula.compare comparison left right).Sendable ↔ left.Sendable ∧ right.Sendable :=
  sendable_pair

theorem sendable_contains (haystack needle : Formula) :
    (Formula.contains haystack needle).Sendable ↔ needle.Sendable ∧ haystack.Sendable :=
  sendable_pair.trans and_comm

theorem sendable_among (needle : Formula) (candidates : List Formula) :
    (Formula.among needle candidates).Sendable ↔ needle.Sendable ∧ SendableEach candidates :=
  sendable_pair

theorem sendable_each_cons (formula : Formula) (rest : List Formula) :
    SendableEach (formula :: rest) ↔ formula.Sendable ∧ SendableEach rest :=
  sendable_pair

abbrev RestoresFormula (decoded : Decoded) (formula : Formula) : Prop :=
  Restores formula.Sendable (fun read => ReadsBack formula.scalars → read.same formula = true)
    decoded

abbrev RestoresEach (decoded : Except Fault (List Formula)) (formulas : List Formula) : Prop :=
  Restores (SendableEach formulas)
    (fun reads => ReadsBack (scalarsEach formulas) → sameEach reads formulas = true) decoded

attribute [local simp] Formula.same sameEach sameBranches sameDefault

theorem sequence_restores {decoded : List Decoded} {formulas : List Formula}
    (each : List.Forall₂ RestoresFormula decoded formulas) :
    RestoresEach (sequence decoded) formulas := by
  induction each with
  | nil => exact .read ⟨trivial, fun _ member => by cases member⟩ fun _ => rfl
  | cons first _ ih =>
      rw [RestoresEach, sendable_each_cons]
      refine first.bind fun read same => ih.map fun reads others back => ?_
      obtain ⟨own, later⟩ := List.forall_mem_append.mp back
      rw [sameEach, same own, others later]
      rfl

theorem expect_count_restores (good : Prop) [Decidable good] (op expected : String) (found : Nat) :
    Restores good (fun _ => True) (expectCount op expected found good) := by
  unfold expectCount
  by_cases isGood : good
  · rw [decide_eq_true isGood]
    exact .read isGood trivial
  · rw [decide_eq_false isGood]
    exact .refused isGood _

section

variable {decoded : List Decoded} {formulas : List Formula}

theorem arithmetic_of_restores (op : Arithmetic)
    (each : List.Forall₂ RestoresFormula decoded formulas) :
    RestoresFormula (arithmeticOf op decoded) (.arithmetic op formulas) := by
  have counted := expect_count_restores (op.Accepts decoded.length) op.symbol op.expected
    decoded.length
  have sendable : (Formula.arithmetic op formulas).Sendable ↔
      op.Accepts formulas.length ∧ SendableEach formulas := and_assoc
  rw [RestoresFormula, sendable, ← each.length_eq]
  exact counted.bind fun _ _ => (sequence_restores each).map fun reads same back => by
    simp [same back]

theorem many_of_restores (op : String) (build : List Formula → Formula) {formula : Formula}
    (sendable : formula.Sendable ↔ formulas ≠ [] ∧ SendableEach formulas)
    (scalars : formula.scalars = scalarsEach formulas)
    (keeps : ∀ reads, sameEach reads formulas = true → (build reads).same formula = true)
    (each : List.Forall₂ RestoresFormula decoded formulas) :
    RestoresFormula (manyOf op build decoded) formula := by
  have counted := expect_count_restores (1 ≤ decoded.length) op "at least 1" decoded.length
  have some : formulas ≠ [] ↔ 1 ≤ decoded.length := by
    rw [each.length_eq]
    exact List.length_pos_iff.symm
  rw [RestoresFormula, sendable, some, scalars]
  exact counted.bind fun _ _ => (sequence_restores each).map fun reads same back =>
    keeps reads (same back)

end

section

variable {left right : Decoded} {first second : Formula}

theorem comparison_of_restores (comparison : Comparison) (lefts : RestoresFormula left first)
    (rights : RestoresFormula right second) :
    RestoresFormula (comparisonOf comparison [left, right])
      (.compare comparison first second) := by
  have both : RestoresFormula (do return .compare comparison (← left) (← right))
      (.compare comparison first second) := by
    rw [RestoresFormula, sendable_compare]
    refine lefts.bind fun a same => rights.map fun b alsoSame back => ?_
    obtain ⟨own, others⟩ := List.forall_mem_append.mp back
    simp [same own, alsoSame others]
  cases comparison <;> exact both

theorem unary_of_restores (op : String) (build : Formula → Formula) {formula : Formula}
    (sendable : formula.Sendable ↔ first.Sendable) (scalars : formula.scalars = first.scalars)
    (keeps : ∀ read, read.same first = true → (build read).same formula = true)
    (restores : RestoresFormula left first) : RestoresFormula (unaryOf op build [left]) formula := by
  rw [RestoresFormula, sendable, scalars]
  cases restores with
  | read isGood same => exact .read isGood fun back => keeps _ (same back)
  | refused bad fault => exact .refused bad fault

theorem in_of_contains_restores (needle : RestoresFormula left first)
    (haystack : RestoresFormula right second) :
    RestoresFormula (inOf none [left, right]) (.contains second first) := by
  rw [RestoresFormula, sendable_contains]
  refine needle.bind fun a same => haystack.map fun b alsoSame back => ?_
  obtain ⟨whole, part⟩ := List.forall_mem_append.mp back
  simp [same part, alsoSame whole]

theorem in_of_among_restores (right : Decoded) {decoded : List Decoded} {candidates : List Formula}
    (needle : RestoresFormula left first)
    (each : List.Forall₂ RestoresFormula decoded candidates) :
    RestoresFormula (inOf (some decoded) [left, right]) (.among first candidates) := by
  rw [RestoresFormula, sendable_among]
  refine needle.bind fun a same => (sequence_restores each).map fun reads others back => ?_
  obtain ⟨own, later⟩ := List.forall_mem_append.mp back
  simp [same own, others later]

end

theorem reads_back_same {scalar value : Scalar} (read : Scalar.ofJson? scalar.toJson = some value)
    (back : scalar.ReadsBack) : value.same scalar = true := by
  obtain ⟨other, alsoRead, same⟩ := back
  cases read.symm.trans alsoRead
  exact same

theorem path_of_json_restores (path : String) :
    Restores (path ≠ "") (fun read => read = path) (pathOfJson (.string path)) := by
  by_cases empty : path = ""
  · simp only [pathOfJson, if_pos empty]
    exact .refused (not_not_intro empty) _
  · simp only [pathOfJson, if_neg empty]
    exact .read empty rfl

theorem default_of_json_restores (default : Scalar) :
    Restores default.Readable (fun read => default.ReadsBack → read.same default = true)
      (defaultOfJson default.toJson) := by
  unfold defaultOfJson
  cases read : Scalar.ofJson? default.toJson with
  | some value => exact .read ⟨value, read⟩ (reads_back_same read)
  | none => exact .refused (fun ⟨value, made⟩ => by cases read.symm.trans made) _

theorem field_of_json_restores (path : String) :
    RestoresFormula (fieldOfJson [.string path]) (.field path none) := by
  have sendable : (Formula.field path none).Sendable ↔ path ≠ "" :=
    and_iff_left fun _ member => by cases member
  rw [RestoresFormula, sendable]
  exact (path_of_json_restores path).map fun read same _ => by simp [same]

theorem field_of_json_default_restores (path : String) (default : Scalar) :
    RestoresFormula (fieldOfJson [.string path, default.toJson]) (.field path (some default)) := by
  have sendable : (Formula.field path (some default)).Sendable ↔ path ≠ "" ∧ default.Readable :=
    and_congr_right fun _ => List.forall_mem_singleton
  rw [RestoresFormula, sendable]
  refine (path_of_json_restores path).bind fun other samePath => ?_
  refine (default_of_json_restores default).map fun read same back => ?_
  simp [samePath, same (back default (.head _))]

def operandsOf (otherwise : Option Formula) : List (Formula × Formula) → List Formula
  | [] => otherwise.toList
  | (condition, consequence) :: rest => condition :: consequence :: operandsOf otherwise rest

theorem flat_branches_to_json (otherwise : Option Formula) (branches : List (Formula × Formula)) :
    flatBranches (toJsonEach otherwise.toList) (toJsonBranches branches) =
      toJsonEach (operandsOf otherwise branches) := by
  induction branches with
  | nil => rfl
  | cons branch rest ih => simp [toJsonBranches, flatBranches, operandsOf, toJsonEach, ih]

theorem operands_of_well_shaped (otherwise : Option Formula) (branches : List (Formula × Formula)) :
    WellShapedEach (operandsOf otherwise branches) ↔
      WellShapedBranches branches ∧ ∀ formula ∈ otherwise, formula.WellShaped := by
  induction branches with
  | nil => cases otherwise <;> simp [operandsOf, WellShapedEach, WellShapedBranches]
  | cons branch rest ih => simp [operandsOf, WellShapedEach, WellShapedBranches, ih, and_assoc]

theorem operands_of_scalars (otherwise : Option Formula) (branches : List (Formula × Formula)) :
    (Formula.choose branches otherwise).scalars = scalarsEach (operandsOf otherwise branches) := by
  induction branches with
  | nil => cases otherwise <;> simp [operandsOf, scalars, scalarsEach, scalarsBranches]
  | cons branch rest ih =>
      cases otherwise <;> simp [operandsOf, scalars, scalarsEach, scalarsBranches, ← ih]

theorem choose_well_shaped (otherwise : Option Formula) (branches : List (Formula × Formula)) :
    (Formula.choose branches otherwise).WellShaped ↔
      operandsOf otherwise branches ≠ [] ∧ WellShapedEach (operandsOf otherwise branches) := by
  rw [operands_of_well_shaped]
  cases otherwise with
  | none => cases branches <;> simp [WellShaped, operandsOf]
  | some formula => cases branches <;> simp [WellShaped, operandsOf]

theorem sendable_choose (otherwise : Option Formula) (branches : List (Formula × Formula)) :
    (Formula.choose branches otherwise).Sendable ↔
      operandsOf otherwise branches ≠ [] ∧ SendableEach (operandsOf otherwise branches) := by
  rw [Sendable, choose_well_shaped, operands_of_scalars, and_assoc]
  rfl

-- The operands come in pairs as long as there are branches.
theorem branches_of_same {reads : List Formula} {otherwise : Option Formula}
    {branches : List (Formula × Formula)}
    (same : sameEach reads (operandsOf otherwise branches) = true) :
    (Formula.choose (branchesOf reads).1 (branchesOf reads).2).same (.choose branches otherwise) =
      true := by
  induction branches generalizing reads with
  | nil =>
      cases otherwise with
      | none =>
          cases reads with
          | nil => rfl
          | cons read rest => simp [operandsOf] at same
      | some formula =>
          match reads with
          | [] => simp [operandsOf] at same
          | [read] => simpa [operandsOf, branchesOf] using same
          | read :: second :: rest => simp [operandsOf] at same
  | cons branch later ih =>
      match reads with
      | [] => simp [operandsOf] at same
      | [read] => simp [operandsOf] at same
      | read :: second :: rest =>
          simp only [operandsOf, sameEach, Bool.and_eq_true] at same
          obtain ⟨condition, consequence, others⟩ := same
          have tail := ih others
          cases otherwise <;> cases left : (branchesOf rest).2 <;>
            simp_all [branchesOf]

theorem number_to_json_not_array (d : Decimal) (items : List Json) :
    Scalar.numberToJson d ≠ .array items := by
  rcases Scalar.number_to_json_cases d with ⟨_, _, _, same⟩ | same | ⟨_, same⟩ <;> simp [same]

theorem to_json_not_array (formula : Formula) (items : List Json) : formula.toJson ≠ .array items := by
  cases formula with
  | literal value =>
      cases value with
      | number n => exact number_to_json_not_array n items
      | _ => simp [toJson, Scalar.toJson]
  | field path default => cases default <;> simp [toJson, operator]
  | choose branches otherwise => cases otherwise <;> simp [toJson, operator]
  | _ => simp [toJson, operator]

theorem of_json_scalar (value : Scalar) : ofJson value.toJson = literalOfJson value.toJson := by
  cases value with
  | number n =>
      change ofJson (Scalar.numberToJson n) = literalOfJson (Scalar.numberToJson n)
      rcases Scalar.number_to_json_cases n with ⟨_, _, _, same⟩ | same | ⟨_, same⟩ <;> simp [same, ofJson]
  | _ => simp [Scalar.toJson, ofJson]

theorem literal_of_json_restores (value : Scalar) :
    RestoresFormula (literalOfJson value.toJson) (.literal value) := by
  have sendable : (Formula.literal value).Sendable ↔ value.Readable :=
    (and_iff_right trivial).trans List.forall_mem_singleton
  rw [RestoresFormula, sendable, literalOfJson]
  cases read : Scalar.ofJson? value.toJson with
  | some other =>
      refine .read ⟨other, read⟩ fun back => ?_
      simpa using reads_back_same read (back value (.head _))
  | none => exact .refused (fun ⟨other, made⟩ => by cases read.symm.trans made) _

theorem of_json_operator (op : String) (operands : List Json) :
    ofJson (operator op (.array operands)) =
      operation op operands (ofJsonEach operands) (candidatesOf operands) := by
  rw [operator, ofJson]

theorem choose_restores {branches : List (Formula × Formula)} {otherwise : Option Formula}
    (each : List.Forall₂ RestoresFormula
      (ofJsonEach (toJsonEach (operandsOf otherwise branches))) (operandsOf otherwise branches)) :
    RestoresFormula (ofJson (Formula.choose branches otherwise).toJson)
      (.choose branches otherwise) := by
  have restores := many_of_restores "if"
    (fun formulas => .choose (branchesOf formulas).1 (branchesOf formulas).2)
    (sendable_choose otherwise branches) (operands_of_scalars otherwise branches)
    (fun reads => branches_of_same) each
  have flat := flat_branches_to_json otherwise branches
  cases otherwise with
  | none =>
      simp only [Option.toList, toJsonEach] at flat
      rw [toJson, of_json_operator, flat]
      exact restores
  | some formula =>
      simp only [Option.toList, toJsonEach] at flat
      rw [toJson, of_json_operator, flat]
      exact restores

theorem candidates_of_formula (needle : Json) (haystack : Formula) :
    candidatesOf [needle, haystack.toJson] = none := by
  unfold candidatesOf
  split
  · rename_i items same
    have isArray := (List.cons.inj (List.cons.inj same).2).1
    exact absurd isArray (to_json_not_array haystack items)
  · rfl

mutual

theorem of_json_restores_sendable (formula : Formula) :
    RestoresFormula (ofJson formula.toJson) formula := by
  cases formula with
  | literal value =>
      rw [toJson, of_json_scalar]
      exact literal_of_json_restores value
  | field path default =>
      cases default with
      | none => exact field_of_json_restores path
      | some default =>
          rw [toJson, of_json_operator]
          exact field_of_json_default_restores path default
  | arithmetic op operands =>
      rw [toJson, of_json_operator, operation, op.of_symbol?_symbol]
      exact arithmetic_of_restores op (of_json_each_restores operands)
  | compare comparison left right =>
      rw [toJson, of_json_operator, operation, comparison.of_symbol?_symbol.1,
        comparison.of_symbol?_symbol.2]
      exact comparison_of_restores comparison (of_json_restores_sendable left)
        (of_json_restores_sendable right)
  | all operands =>
      rw [toJson, of_json_operator]
      exact many_of_restores "and" .all and_assoc rfl (fun reads same => by
        simpa using same) (of_json_each_restores operands)
  | any operands =>
      rw [toJson, of_json_operator]
      exact many_of_restores "or" .any and_assoc rfl (fun reads same => by
        simpa using same) (of_json_each_restores operands)
  | not operand =>
      rw [toJson, of_json_operator]
      exact unary_of_restores "!" .not (Iff.refl operand.Sendable) rfl (fun read same => by
        simpa using same) (of_json_restores_sendable operand)
  | truth operand =>
      rw [toJson, of_json_operator]
      exact unary_of_restores "!!" .truth (Iff.refl operand.Sendable) rfl (fun read same => by
        simpa using same) (of_json_restores_sendable operand)
  | choose branches otherwise =>
      cases otherwise with
      | none => exact choose_restores (operands_of_restores none branches (by simp))
      | some formula =>
          refine choose_restores (operands_of_restores (some formula) branches ?_)
          intro other same
          cases same
          exact of_json_restores_sendable formula
  | among needle candidates =>
      rw [toJson, of_json_operator]
      exact in_of_among_restores (ofJson (.array (toJsonEach candidates)))
        (of_json_restores_sendable needle) (of_json_each_restores candidates)
  | contains haystack needle =>
      rw [toJson, of_json_operator, candidates_of_formula]
      exact in_of_contains_restores (of_json_restores_sendable needle)
        (of_json_restores_sendable haystack)

theorem of_json_each_restores (formulas : List Formula) :
    List.Forall₂ RestoresFormula (ofJsonEach (toJsonEach formulas)) formulas := by
  cases formulas with
  | nil => exact .nil
  | cons formula rest => exact .cons (of_json_restores_sendable formula) (of_json_each_restores rest)

theorem operands_of_restores (otherwise : Option Formula) (branches : List (Formula × Formula))
    (last : ∀ formula ∈ otherwise, RestoresFormula (ofJson formula.toJson) formula) :
    List.Forall₂ RestoresFormula (ofJsonEach (toJsonEach (operandsOf otherwise branches)))
      (operandsOf otherwise branches) := by
  cases branches with
  | nil =>
      cases otherwise with
      | none => exact .nil
      | some formula => exact .cons (last formula rfl) .nil
  | cons branch rest =>
      obtain ⟨condition, consequence⟩ := branch
      exact .cons (of_json_restores_sendable condition) (.cons (of_json_restores_sendable consequence)
        (operands_of_restores otherwise rest last))

end

theorem of_json_restores (formula : Formula)
    (back : ∀ scalar ∈ formula.scalars, scalar.ReadsBack) :
    Restores formula.WellShaped (fun read => read.same formula = true) (ofJson formula.toJson) := by
  have sendable : formula.Sendable ↔ formula.WellShaped :=
    and_iff_left fun scalar member => (back scalar member).imp fun _ => And.left
  have restores := formula.of_json_restores_sendable
  rw [RestoresFormula, sendable] at restores
  generalize ofJson formula.toJson = decoded at restores ⊢
  cases restores with
  | read isGood same => exact .read isGood (same back)
  | refused bad fault => exact .refused bad fault

theorem of_json_to_json_iff (formula : Formula) :
    (∃ read, ofJson formula.toJson = .ok read) ↔ formula.Sendable := by
  obtain ⟨read, refused⟩ := formula.of_json_restores_sendable.result
  refine ⟨fun ⟨value, made⟩ => ?_, fun sendable => (read sendable).imp fun _ => And.left⟩
  by_contra bad
  obtain ⟨fault, failed⟩ := refused bad
  cases failed.symm.trans made

end Formula

theorem json_restores_well_shaped_only (formula : Formula)
    (numbers : ∀ number, Scalar.number number ∈ formula.scalars →
      (Scalar.number number).ReadsBack) :
    (formula.WellShaped → ∃ read, Formula.ofJson formula.toJson = .ok read ∧
        read.same formula = true) ∧
      (¬formula.WellShaped → ∃ fault, Formula.ofJson formula.toJson = .error fault) := by
  refine (Formula.of_json_restores formula fun scalar member => ?_).result
  exact Scalar.reads_back fun number same => same ▸ numbers number (same ▸ member)

def halfPrice (operands : List Formula) : Formula :=
  .choose [(.compare .below (.field "camper.age" (some (.number .one))) (.field "camper.limit" none),
    .arithmetic .divide operands)] none

def halved : List Formula :=
  [.literal (.number ⟨true, 250, 2, by decide, by decide⟩), .literal (.text "2")]

theorem json_restores_well_shaped_only_half :
    (∃ read, Formula.ofJson (halfPrice halved).toJson = .ok read ∧
        read.same (halfPrice halved) = true) ∧
      ∃ fault, Formula.ofJson (halfPrice (halved.take 1)).toJson = .error fault := by
  have numbers (number : Decimal)
      (written : number = .one ∨ number = ⟨true, 250, 2, by decide, by decide⟩) :
      (Scalar.number number).ReadsBack := by
    rcases written with same | same
    · subst same
      exact ⟨.number .one, by decide +kernel, by decide +kernel⟩
    · subst same
      exact ⟨.number ⟨true, 25, 1, by decide, by decide⟩, by decide +kernel, by decide +kernel⟩
  constructor
  · refine (json_restores_well_shaped_only (halfPrice halved) fun number member => ?_).1 ?_
    · simp [halfPrice, halved, Formula.scalars, Formula.scalarsBranches, Formula.scalarsEach] at member
      exact numbers number member
    · simp [halfPrice, halved, Formula.WellShaped, Formula.WellShapedBranches,
        Formula.WellShapedEach, Arithmetic.Accepts]
  · refine (json_restores_well_shaped_only (halfPrice (halved.take 1)) fun number member => ?_).2 ?_
    · simp [halfPrice, halved, Formula.scalars, Formula.scalarsBranches, Formula.scalarsEach] at member
      exact numbers number member
    · simp [halfPrice, halved, Formula.WellShaped, Formula.WellShapedBranches,
        Formula.WellShapedEach, Arithmetic.Accepts]

end Tariff
