import Tariff.Formula.Encoding
import Tariff.Formula.WellShaped
import Tariff.Proofs.Binary64.Text
import Tariff.Proofs.Json.Number

set_option autoImplicit false

namespace Tariff

theorem Json.Number.text_ne_nil (number : Json.Number) : number.text ≠ [] := by
  cases number with
  | whole value isWord =>
      rw [text, to_string_chars]
      exact List.append_ne_nil_of_right_ne_nil _ Nat.toDigits_ne_nil
  | binary value => exact value.json_text_ne_nil

namespace Formula

def Gives {α : Type} (good : α → Prop) (decoded : Except Fault α) : Prop :=
  ∀ value, decoded = .ok value → good value

namespace Gives

variable {α β : Type} {good : α → Prop} {fine : β → Prop}

theorem ok {value : α} (isGood : good value) : Gives good (.ok value) := by
  intro other same
  cases same
  exact isGood

theorem error (fault : Fault) : Gives good (.error fault) := by
  intro value same
  cases same

theorem trivial (decoded : Except Fault α) : Gives (fun _ => True) decoded := fun _ _ => True.intro

theorem bind {decoded : Except Fault α} {next : α → Except Fault β} (gives : Gives good decoded)
    (continued : ∀ value, good value → Gives fine (next value)) : Gives fine (decoded >>= next) := by
  cases decoded with
  | error fault => exact error fault
  | ok value => exact continued value (gives value rfl)

end Gives

abbrev GivesShaped : Decoded → Prop := Gives WellShaped

theorem sequence_gives {decoded : List Decoded} (each : ∀ item ∈ decoded, GivesShaped item) :
    Gives (fun formulas => formulas.length = decoded.length ∧ WellShapedEach formulas)
      (sequence decoded) := by
  induction decoded with
  | nil => exact .ok ⟨rfl, trivial⟩
  | cons item rest ih =>
      obtain ⟨first, later⟩ := List.forall_mem_cons.mp each
      refine .bind first fun formula shaped => .bind (ih later) fun formulas others => ?_
      exact .ok ⟨congrArg (· + 1) others.1, shaped, others.2⟩

theorem expect_count_gives (good : Prop) [Decidable good] (op expected : String) (found : Nat) :
    Gives (fun _ => good) (expectCount op expected found good) := by
  unfold expectCount
  by_cases isGood : good
  · rw [decide_eq_true isGood]
    exact .ok isGood
  · rw [decide_eq_false isGood]
    exact .error _

theorem path_of_json_gives (json : Json) : Gives (· ≠ "") (pathOfJson json) := by
  cases json with
  | string path =>
      by_cases empty : path = ""
      · rw [pathOfJson, if_pos empty]
        exact .error _
      · rw [pathOfJson, if_neg empty]
        exact .ok empty
  | number value =>
      exact .ok fun empty => value.text_ne_nil (String.ofList_eq_empty_iff.mp empty)
  | _ => exact .error _

theorem field_of_json_gives (operands : List Json) : GivesShaped (fieldOfJson operands) := by
  match operands with
  | [path] => exact .bind (path_of_json_gives path) fun _ nonempty => .ok nonempty
  | [path, default] =>
      refine .bind (path_of_json_gives path) fun _ nonempty => ?_
      exact .bind (.trivial _) fun _ _ => .ok nonempty
  | [] => exact .error _
  | _ :: _ :: _ :: _ => exact .error _

theorem sum_of_shaped (rule : String) : (sumOf rule).WellShaped := by
  intro empty
  have first := congrArg String.toList empty
  rw [String.toList_append, String.toList_append] at first
  cases first

theorem sum_of_json_gives (operands : List Json) : GivesShaped (sumOfJson operands) := by
  unfold sumOfJson
  split
  · split
    · exact .error _
    · exact .ok (sum_of_shaped _)
  · exact .error _
  · exact .error _

theorem branches_of_shaped {formulas : List Formula} (nonempty : formulas ≠ [])
    (shaped : WellShapedEach formulas) :
    (Formula.choose (branchesOf formulas).1 (branchesOf formulas).2).WellShaped := by
  have each (formulas : List Formula) (shaped : WellShapedEach formulas) :
      WellShapedBranches (branchesOf formulas).1 ∧
        ∀ otherwise ∈ (branchesOf formulas).2, otherwise.WellShaped := by
    induction formulas using branchesOf.induct with
    | case1 => exact ⟨trivial, fun _ member => by cases member⟩
    | case2 otherwise =>
        refine ⟨trivial, fun last member => ?_⟩
        cases member
        exact shaped.1
    | case3 condition consequence rest _ _ _ ih =>
        obtain ⟨branches, last⟩ := ih shaped.2.2
        exact ⟨⟨shaped.1, shaped.2.1, branches⟩, last⟩
  obtain ⟨branches, last⟩ := each formulas shaped
  cases found : (branchesOf formulas).2 with
  | some otherwise => exact ⟨branches, last otherwise found⟩
  | none =>
      refine ⟨?_, branches⟩
      match formulas, nonempty with
      | [otherwise], _ => cases found
      | condition :: consequence :: rest, _ => exact List.cons_ne_nil _ _

section

variable {operands : List Decoded} (each : ∀ item ∈ operands, GivesShaped item)

include each

theorem compare_of_gives (comparison : Comparison) : GivesShaped (compareOf comparison operands) := by
  match operands with
  | [left, right] =>
      refine .bind (each left (.head _)) fun a first => ?_
      exact .bind (each right (.tail _ (.head _))) fun b second => .ok ⟨first, second⟩
  | [] | [_] | _ :: _ :: _ :: _ => exact .error _

theorem between_of_gives (comparison : Comparison) : GivesShaped (betweenOf comparison operands) := by
  match operands with
  | [left, right] => exact compare_of_gives each comparison
  | [low, middle, high] =>
      refine .bind (each low (.head _)) fun a first => ?_
      refine .bind (each middle (.tail _ (.head _))) fun b second => ?_
      refine .bind (each high (.tail _ (.tail _ (.head _)))) fun c third => ?_
      exact .ok ⟨List.cons_ne_nil _ _, ⟨first, second⟩, ⟨second, third⟩, trivial⟩
  | [] | [_] | _ :: _ :: _ :: _ :: _ => exact .error _

theorem comparison_of_gives (comparison : Comparison) :
    GivesShaped (comparisonOf comparison operands) := by
  cases comparison with
  | below => exact between_of_gives each .below
  | atMost => exact between_of_gives each .atMost
  | _ => exact compare_of_gives each _

theorem arithmetic_of_gives (op : Arithmetic) : GivesShaped (arithmeticOf op operands) := by
  refine .bind (expect_count_gives (op.Accepts operands.length) _ _ _) fun _ accepts => ?_
  refine .bind (sequence_gives each) fun formulas ⟨length, shaped⟩ => .ok ⟨?_, shaped⟩
  rw [length]
  exact accepts

theorem unary_of_gives (op : String) (build : Formula → Formula)
    (keeps : ∀ formula, formula.WellShaped → (build formula).WellShaped) :
    GivesShaped (unaryOf op build operands) := by
  match operands with
  | [operand] =>
      have gives := each operand (.head _)
      cases operand with
      | error fault => exact .error fault
      | ok formula => exact .ok (keeps formula (gives formula rfl))
  | [] | _ :: _ :: _ => exact .error _

theorem many_of_gives (op : String) (build : List Formula → Formula)
    (keeps : ∀ formulas, formulas ≠ [] → WellShapedEach formulas → (build formulas).WellShaped) :
    GivesShaped (manyOf op build operands) := by
  refine .bind (expect_count_gives (1 ≤ operands.length) _ _ _) fun _ some => ?_
  refine .bind (sequence_gives each) fun formulas ⟨length, shaped⟩ => .ok (keeps _ ?_ shaped)
  exact List.ne_nil_of_length_pos (length ▸ some)

theorem in_of_gives (candidates : Option (List Decoded))
    (others : ∀ items ∈ candidates, ∀ item ∈ items, GivesShaped item) :
    GivesShaped (inOf candidates operands) := by
  match operands with
  | [needle, haystack] =>
      refine .bind (each needle (.head _)) fun a first => ?_
      cases candidates with
      | some items =>
          exact .bind (sequence_gives (others items rfl)) fun _ shaped => .ok ⟨first, shaped.2⟩
      | none => exact .bind (each haystack (.tail _ (.head _))) fun b second => .ok ⟨second, first⟩
  | [] | [_] | _ :: _ :: _ :: _ => exact .error _

theorem operation_gives (op : String) (raw : List Json) (candidates : Option (List Decoded))
    (others : ∀ items ∈ candidates, ∀ item ∈ items, GivesShaped item) :
    GivesShaped (operation op raw operands candidates) := by
  have choice : GivesShaped (chooseOf op operands) :=
    many_of_gives each op _ fun _ => branches_of_shaped
  unfold operation
  split
  · exact arithmetic_of_gives each _
  · exact comparison_of_gives each _
  · split
    · exact field_of_json_gives raw
    split
    · exact sum_of_json_gives raw
    split
    · exact many_of_gives each op .all fun _ nonempty shaped => ⟨nonempty, shaped⟩
    split
    · exact many_of_gives each op .any fun _ nonempty shaped => ⟨nonempty, shaped⟩
    split
    · exact unary_of_gives each op .not fun _ shaped => shaped
    split
    · exact unary_of_gives each op .truth fun _ shaped => shaped
    split
    · exact choice
    split
    · exact choice
    split
    · exact in_of_gives each candidates others
    · exact .error _

end

theorem literal_of_json_gives (json : Json) : GivesShaped (literalOfJson json) := by
  unfold literalOfJson
  split
  · exact .ok trivial
  · exact .error _

mutual

theorem of_json_gives (json : Json) : GivesShaped (ofJson json) := by
  unfold ofJson
  split
  · exact .error _
  · rename_i op operands
    exact operation_gives (of_json_each_gives operands) op operands _ (candidates_of_gives operands)
  · rename_i op operand _
    have alone : ∀ item ∈ [ofJson operand], GivesShaped item :=
      List.forall_mem_singleton.mpr (of_json_gives operand)
    exact operation_gives alone op [operand] none fun _ absent => by cases absent
  · exact .error _
  · exact literal_of_json_gives _

theorem of_json_each_gives (items : List Json) : ∀ item ∈ ofJsonEach items, GivesShaped item := by
  cases items with
  | nil =>
      intro item member
      cases member
  | cons json rest =>
      exact List.forall_mem_cons.mpr ⟨of_json_gives json, of_json_each_gives rest⟩

theorem candidates_of_gives (operands : List Json) :
    ∀ items ∈ candidatesOf operands, ∀ item ∈ items, GivesShaped item := by
  unfold candidatesOf
  split
  · rename_i needle items
    intro decoded same
    cases same
    exact of_json_each_gives items
  · intro decoded absent
    cases absent

end

end Formula

end Tariff
