import Tariff.Proofs.Script.Nested

set_option autoImplicit false

namespace Tariff.Script

open Reader

variable {rest : List Char} {depth : Nat}

theorem length_le_separated {ι : Type} (separator : List Char) (chars : ι → List Char)
    (items : List ι) : ∀ item ∈ items,
      (chars item).length ≤ (items.flatMap fun item => separator ++ chars item).length := by
  induction items with
  | nil =>
      intro item member
      cases member
  | cons first others ih =>
      intro item member
      rw [List.flatMap_cons, List.length_append, List.length_append]
      rcases List.mem_cons.mp member with same | later
      · rw [same]
        omega
      · have shorter := ih item later
        omega

theorem length_le_joined {ι : Type} (separator : String) (chars : ι → List Char) (items : List ι) :
    ∀ item ∈ items, (chars item).length ≤ (Formula.joined separator (items.map chars)).length := by
  cases items with
  | nil =>
      intro item member
      cases member
  | cons first others =>
      intro item member
      rw [joined_map, List.length_append]
      rcases List.mem_cons.mp member with same | later
      · rw [same]
        omega
      · have shorter := length_le_separated separator.toList chars others item later
        omega

abbrev ReadsEach (formulas : List Formula) : Prop :=
  ∀ depth, (∀ formula ∈ formulas, formula.chars.length ≤ depth) →
    ∀ formula ∈ formulas, Reads depth formula

theorem ReadsEach.joined {formulas : List Formula} (each : ReadsEach formulas) (separator : String)
    (fits : (Formula.joined separator (formulas.map Formula.chars)).length ≤ depth) :
    ∀ formula ∈ formulas, Reads depth formula :=
  each depth fun _ member =>
    Nat.le_trans (length_le_joined separator Formula.chars formulas _ member) fits

theorem close (rest : List Char) : Stops comparisonMarks disjunctionWords (')' :: rest) :=
  .close (by decide)

theorem reads_parenthesized {formula value : Formula} {inner : List Char}
    (chars : formula.chars = Formula.parenthesized inner) (reread : formula.reread = value)
    (deep : formula.chars.length ≤ depth)
    (read : ∀ depth, inner.length < depth → ∀ rest,
      disjunction (formulaWithin depth) (inner ++ ')' :: rest) = .done value (')' :: rest)) :
    Reads depth formula := by
  intro rest stops
  rw [chars, Formula.parenthesized, List.length_cons, List.length_append, List.length_singleton]
    at deep
  obtain ⟨further, same⟩ : ∃ further, depth = further + 1 := ⟨depth - 1, by omega⟩
  subst same
  rw [chars, reread]
  refine .parenthesized ?_ stops
  rw [formula_within_succ]
  exact read further (by omega) rest

theorem reads_call_text {formula value : Formula} {word : String} {inner : List Char}
    (chars : formula.chars = Formula.callText word inner) (reread : formula.reread = value)
    (deep : formula.chars.length ≤ depth)
    (read : ∀ depth, inner.length ≤ depth → ∀ rest, Stops operandMarks [] rest →
      ReadsOperand (formulaWithin (depth + 1)) (Formula.callText word inner) value rest) :
    Reads depth formula := by
  intro rest stops
  rw [chars, Formula.callText, Formula.parenthesized, List.length_append, List.length_cons,
    List.length_append, List.length_singleton] at deep
  obtain ⟨further, same⟩ : ∃ further, depth = further + 1 := ⟨depth - 1, by omega⟩
  subst same
  rw [chars, reread]
  exact read further (by omega) rest stops

theorem reads_extreme {op : Arithmetic} (isCall : op = .least ∨ op = .greatest)
    {operands : List Formula} (nonempty : operands ≠ []) (each : ReadsEach operands)
    (deep : (Formula.arithmetic op operands).chars.length ≤ depth) :
    Reads depth (.arithmetic op operands) := by
  obtain ⟨first, others, same⟩ := List.exists_cons_of_ne_nil nonempty
  subst same
  have reread : (Formula.arithmetic op (first :: others)).reread =
      .arithmetic op ((first :: others).map Formula.reread) := by
    rw [Formula.reread, Formula.reread_each_eq_map]
    rcases isCall with same | same <;> rw [same, Formula.arithmeticOfRead]
  have chars : (Formula.arithmetic op (first :: others)).chars =
      Formula.callText op.symbol (Formula.joined ", " ((first :: others).map Formula.chars)) := by
    rw [Formula.chars, Formula.chars_each_eq_map]
    rcases isCall with same | same <;> rw [same, Formula.arithmeticText]
  exact reads_call_text chars reread deep fun depth fits rest stops =>
    extreme_read isCall (each.joined ", " fits) stops

theorem chars_sign {op : Arithmetic} (noCall : op ≠ .least ∧ op ≠ .greatest) (operand : Formula) :
    (Formula.arithmetic op [operand]).chars =
      Formula.parenthesized (op.symbol.toList ++ operand.chars) := by
  rw [Formula.chars, Formula.chars_each_eq_map]
  cases op with
  | least => exact absurd rfl noCall.1
  | greatest => exact absurd rfl noCall.2
  | _ => rfl

theorem chars_signs {op : Arithmetic} (noCall : op ≠ .least ∧ op ≠ .greatest)
    (first second : Formula) (others : List Formula) :
    (Formula.arithmetic op (first :: second :: others)).chars =
      Formula.parenthesized (Formula.joined (" " ++ op.symbol ++ " ")
        ((first :: second :: others).map Formula.chars)) := by
  rw [Formula.chars, Formula.chars_each_eq_map]
  cases op with
  | least => exact absurd rfl noCall.1
  | greatest => exact absurd rfl noCall.2
  | _ => rfl

theorem reread_signed {op : Arithmetic} (noCall : op ≠ .least ∧ op ≠ .greatest)
    (operands : List Formula) :
    (Formula.arithmetic op operands).reread = Formula.signed op (operands.map Formula.reread) := by
  rw [Formula.reread, Formula.reread_each_eq_map]
  cases op with
  | least => exact absurd rfl noCall.1
  | greatest => exact absurd rfl noCall.2
  | _ => rfl

theorem reads_signed {op : Arithmetic} (noCall : op ≠ .least ∧ op ≠ .greatest)
    {operands : List Formula} (writes : op.Writes operands.length) (each : ReadsEach operands)
    (deep : (Formula.arithmetic op operands).chars.length ≤ depth) :
    Reads depth (.arithmetic op operands) := by
  have reread := reread_signed noCall operands
  match operands with
  | [] =>
      have none : ¬op.Accepts 0 := by cases op <;> decide
      exact absurd writes.1 none
  | [operand] =>
      have isSum : op = .add ∨ op = .subtract := by
        obtain ⟨accepts, noProduct⟩ := writes
        cases op with
        | add => exact .inl rfl
        | subtract => exact .inr rfl
        | multiply => exact absurd rfl (noProduct rfl)
        | divide => exact absurd (show 1 = 2 from accepts) (by decide)
        | remainder => exact absurd (show 1 = 2 from accepts) (by decide)
        | least => exact absurd rfl noCall.1
        | greatest => exact absurd rfl noCall.2
      refine reads_parenthesized (chars_sign noCall operand) reread deep fun depth fits rest => ?_
      rw [List.length_append] at fits
      have reads : Reads depth operand :=
        each depth (by intro formula member; rw [List.mem_singleton.mp member]; omega) operand
          (List.mem_singleton_self _)
      rw [List.append_assoc]
      exact sign_read isSum reads (close rest)
  | first :: second :: others =>
      exact reads_parenthesized (chars_signs noCall first second others) reread deep
        fun depth fits rest => signs_read noCall (each.joined _ (Nat.le_of_lt fits)) (close rest)

theorem reads_arithmetic {op : Arithmetic} {operands : List Formula}
    (writes : op.Writes operands.length) (each : ReadsEach operands)
    (deep : (Formula.arithmetic op operands).chars.length ≤ depth) :
    Reads depth (.arithmetic op operands) := by
  by_cases isCall : op = .least ∨ op = .greatest
  · refine reads_extreme isCall ?_ each deep
    intro none
    have accepts := writes.1
    rw [none] at accepts
    rcases isCall with same | same <;> (subst same; exact absurd accepts (by decide))
  · exact reads_signed (not_or.mp isCall) writes each deep

theorem reads_all {operands : List Formula} (nonempty : operands ≠ []) (each : ReadsEach operands)
    (deep : (Formula.all operands).chars.length ≤ depth) : Reads depth (.all operands) := by
  obtain ⟨first, others, same⟩ := List.exists_cons_of_ne_nil nonempty
  subst same
  exact reads_parenthesized (by rw [Formula.chars, Formula.chars_each_eq_map])
    (by rw [Formula.reread, Formula.reread_each_eq_map]) deep
    fun depth fits rest => all_read (each.joined _ (Nat.le_of_lt fits)) (close rest)

theorem reads_any {operands : List Formula} (nonempty : operands ≠ []) (each : ReadsEach operands)
    (deep : (Formula.any operands).chars.length ≤ depth) : Reads depth (.any operands) := by
  obtain ⟨first, others, same⟩ := List.exists_cons_of_ne_nil nonempty
  subst same
  exact reads_parenthesized (by rw [Formula.chars, Formula.chars_each_eq_map])
    (by rw [Formula.reread, Formula.reread_each_eq_map]) deep
    fun depth fits rest => any_read (each.joined _ (Nat.le_of_lt fits)) (close rest)

abbrev ReadsBranches (branches : List (Formula × Formula)) : Prop :=
  ∀ depth, (∀ branch ∈ branches, (branchChars branch).length ≤ depth) →
    ∀ branch ∈ branches, ReadsBranch depth branch

theorem chars_choose (first : Formula × Formula) (others : List (Formula × Formula))
    (otherwise : Option Formula) :
    (Formula.choose (first :: others) otherwise).chars =
      Formula.parenthesized ("if ".toList ++ (branchChars first ++
        ((others.flatMap fun branch => " elif ".toList ++ branchChars branch) ++
          elseChars otherwise))) := by
  obtain ⟨condition, consequence⟩ := first
  cases otherwise with
  | none =>
      rw [Formula.chars, Formula.charsBranches, Formula.branchesText, branches_text_elif]
      simp [Formula.parenthesized, branchChars, else_chars_none]
  | some otherwise =>
      rw [Formula.chars, Formula.charsBranches, Formula.branchesText, branches_text_elif]
      simp [Formula.parenthesized, branchChars, else_chars_some]

theorem reads_choose {branches : List (Formula × Formula)} {otherwise : Option Formula}
    (nonempty : branches ≠ []) (each : ReadsBranches branches)
    (reads : ∀ formula ∈ otherwise, ∀ depth, formula.chars.length ≤ depth → Reads depth formula)
    (deep : (Formula.choose branches otherwise).chars.length ≤ depth) :
    Reads depth (.choose branches otherwise) := by
  obtain ⟨first, others, same⟩ := List.exists_cons_of_ne_nil nonempty
  subst same
  have reread : (Formula.choose (first :: others) otherwise).reread =
      .choose ((first :: others).map rereadBranch) (otherwise.map Formula.reread) := by
    cases otherwise <;> rw [Formula.reread, reread_branches_eq_map] <;> rfl
  refine reads_parenthesized (chars_choose first others otherwise) reread deep
    fun depth fits rest => ?_
  obtain ⟨further, same⟩ : ∃ further, depth = further + 1 := ⟨depth - 1, by omega⟩
  subst same
  simp only [List.length_append] at fits
  have short : ∀ branch ∈ first :: others, (branchChars branch).length ≤ further := by
    intro branch member
    rcases List.mem_cons.mp member with same | later
    · rw [same]
      omega
    · have shorter := length_le_separated " elif ".toList branchChars others branch later
      omega
  have readsElse : ∀ formula ∈ otherwise, Reads further formula := by
    intro formula member
    cases member
    rw [else_chars_some, List.length_append] at fits
    exact reads formula rfl further (by omega)
  simp only [List.append_assoc]
  exact choose_read (each further short) readsElse

theorem reads_among {needle : Formula} {candidates : List Formula}
    (reads : ∀ depth, needle.chars.length ≤ depth → Reads depth needle)
    (each : ReadsEach candidates) (deep : (Formula.among needle candidates).chars.length ≤ depth) :
    Reads depth (.among needle candidates) := by
  have reread : (Formula.among needle candidates).reread =
      .among needle.reread (candidates.map Formula.reread) := by
    rw [Formula.reread, Formula.reread_each_eq_map]
  refine reads_parenthesized (by rw [Formula.chars, Formula.chars_each_eq_map]) reread deep
    fun depth fits rest => ?_
  simp only [List.length_append] at fits
  obtain ⟨further, same⟩ : ∃ further, depth = further + 1 := ⟨depth - 1, by omega⟩
  subst same
  have read := among_read (reads (further + 1) (by omega)) (each.joined ", " (by omega)) (close rest)
  simpa using read

abbrev Legible : Formula → Prop :=
  Formula.Written (fun name => IsPath name.toList) Scalar.IsVerbatim

mutual

theorem reads_formula (formula : Formula) (legible : Legible formula) (depth : Nat)
    (deep : formula.chars.length ≤ depth) : Reads depth formula := by
  cases formula with
  | literal value => exact fun rest stops => .literal legible stops
  | field name default =>
      obtain ⟨isPath, verbatim⟩ := legible
      cases default with
      | none => exact fun rest stops => .path isPath stops
      | some default =>
          refine reads_parenthesized (by rw [Formula.chars]) (by rw [Formula.reread]) deep
            fun depth fits rest => ?_
          simpa using default_read isPath (verbatim default rfl) (close rest)
  | arithmetic op operands =>
      exact reads_arithmetic legible.1 (fun depth deep => reads_each operands legible.2 depth deep)
        deep
  | compare comparison left right =>
      refine reads_parenthesized (by rw [Formula.chars]) (by rw [Formula.reread]) deep
        fun depth fits rest => ?_
      simp only [List.length_append] at fits
      have lefts := reads_formula left legible.1 depth (by omega)
      have rights := reads_formula right legible.2 depth (by omega)
      simpa using compare_read lefts rights (close rest)
  | all operands =>
      exact reads_all legible.1 (fun depth deep => reads_each operands legible.2 depth deep) deep
  | any operands =>
      exact reads_any legible.1 (fun depth deep => reads_each operands legible.2 depth deep) deep
  | not operand =>
      refine reads_parenthesized (by rw [Formula.chars]) (by rw [Formula.reread]) deep
        fun depth fits rest => ?_
      simp only [List.length_append] at fits
      simpa using not_read (reads_formula operand legible depth (by omega)) (close rest)
  | truth operand =>
      exact reads_call_text (by rw [Formula.chars]) (by rw [Formula.reread]) deep
        fun depth fits rest stops => truth_read (reads_formula operand legible depth fits) stops
  | choose branches otherwise =>
      have each : ReadsBranches branches := fun depth short => by
        cases otherwise with
        | none => exact reads_branches branches legible.2 depth short
        | some otherwise => exact reads_branches branches legible.2.1 depth short
      cases otherwise with
      | none =>
          refine reads_choose legible.1 each (fun formula member => ?_) deep
          cases member
      | some otherwise =>
          refine reads_choose legible.1 each (fun formula member depth deep => ?_) deep
          cases member
          exact reads_formula otherwise legible.2.2 depth deep
  | among needle candidates =>
      exact reads_among (fun depth deep => reads_formula needle legible.1 depth deep)
        (fun depth deep => reads_each candidates legible.2 depth deep) deep
  | contains haystack needle =>
      refine reads_parenthesized (by rw [Formula.chars]) (by rw [Formula.reread]) deep
        fun depth fits rest => ?_
      simp only [List.length_append] at fits
      have needles := reads_formula needle legible.2 depth (by omega)
      have haystacks := reads_formula haystack legible.1 depth (by omega)
      simpa using contains_read needles haystacks (close rest)

theorem reads_each (formulas : List Formula)
    (legible : Formula.WrittenEach (fun name => IsPath name.toList) Scalar.IsVerbatim formulas)
    (depth : Nat) (deep : ∀ formula ∈ formulas, formula.chars.length ≤ depth) :
    ∀ formula ∈ formulas, Reads depth formula := by
  cases formulas with
  | nil =>
      intro formula member
      cases member
  | cons first others =>
      obtain ⟨shallow, later⟩ := List.forall_mem_cons.mp deep
      exact List.forall_mem_cons.mpr
        ⟨reads_formula first legible.1 depth shallow, reads_each others legible.2 depth later⟩

theorem reads_branches (branches : List (Formula × Formula))
    (legible : Formula.WrittenBranches (fun name => IsPath name.toList) Scalar.IsVerbatim branches)
    (depth : Nat) (deep : ∀ branch ∈ branches, (branchChars branch).length ≤ depth) :
    ∀ branch ∈ branches, ReadsBranch depth branch := by
  cases branches with
  | nil =>
      intro branch member
      cases member
  | cons first others =>
      obtain ⟨condition, consequence⟩ := first
      obtain ⟨shallow, later⟩ := List.forall_mem_cons.mp deep
      simp only [branchChars, List.length_append] at shallow
      refine List.forall_mem_cons.mpr ⟨⟨?_, ?_⟩, reads_branches others legible.2.2 depth later⟩
      · exact reads_formula condition legible.1 depth (by omega)
      · exact reads_formula consequence legible.2.1 depth (by omega)

end

end Tariff.Script
