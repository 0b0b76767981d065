import Tariff.Proofs.Environment.Below
import Tariff.Proofs.Json.Restored
import Tariff.Proofs.Pricing.Trusted
import Tariff.Proofs.Script.Placed

/-! A constant is kept as a JSON number, so a rule that charges it charges the number that is read back
from there. -/

set_option autoImplicit false

namespace Tariff

namespace Script

open Reader

namespace WrittenNumber

variable (number : WrittenNumber) (negative : Bool)

def signedChars : List Char := (if negative then ['-'] else []) ++ number.chars

def signedText : String := String.ofList (number.signedChars negative)

def signed : Decimal := if negative then number.value.neg else number.value

variable {rest : List Char} {depth : Nat}

theorem signed_literal_signed (ends : Ends isPathChar rest) :
    signedLiteral (number.signedChars negative ++ rest) =
      .done (.number (number.signed negative)) rest := by
  cases negative with
  | true => exact signed_literal_minus number.numeral number.plain ends
  | false =>
      exact signed_literal_literal (number.opens.append rest)
        (literal_number number.numeral number.plain ends)

theorem reads_signed :
    Level.sign.Reads depth (number.signedChars negative)
      (.literal (.number (number.signed negative))) := by
  have digits : Level.sign.Reads depth number.chars (.literal (.number number.value)) :=
    (Level.Reads.number number).looser
  cases negative with
  | true =>
      have minus : Level.sign.Reads depth ('-' :: ([] ++ number.chars))
          (applySign '-' (.literal (.number number.value))) := digits.minus fun _ => rfl
      exact minus
  | false => exact digits

theorem formula_signed (stops : Stops comparisonMarks disjunctionWords rest) :
    Script.formula (' ' :: (number.signedChars negative ++ rest)) =
      .done (.literal (.number (number.signed negative))) rest := by
  have loose : Level.disjunction.rank ≤ Level.sign.rank := Nat.zero_le _
  rw [Script.formula, SkipsSpace.formula_within]
  exact ((number.reads_signed negative).loosened loose).whole stops

end WrittenNumber

theorem is_name_k : IsName "k".toList := ⟨⟨'k', [], rfl, by decide⟩, by decide⟩

theorem formula_constant {rest : List Char} (stops : Stops comparisonMarks disjunctionWords rest) :
    Script.formula (' ' :: ("pricing.k".toList ++ rest)) = .done (.field "pricing.k" none) rest := by
  have isPath : IsPath "pricing.k".toList := ⟨⟨⟨'p', _, rfl, by decide⟩, by decide⟩, by decide⟩
  have loose : Level.disjunction.rank ≤ Level.operand.rank := Nat.zero_le _
  rw [Script.formula, SkipsSpace.formula_within]
  exact ((Level.Reads.path isPath).loosened loose).whole stops

def inlineText (spelled : String) : String := "camper r: " ++ spelled ++ "\n"

def constantText (spelled : String) : String :=
  "pricing k = " ++ spelled ++ "\n" ++ inlineText "pricing.k"

theorem inline_text_lines {spelled : String} {value : Formula}
    (read : ∀ rest, Stops comparisonMarks disjunctionWords rest →
      Script.formula (' ' :: (spelled.toList ++ rest)) = .done value rest) :
    Lines (inlineText spelled).toList [.rule .camper ⟨"r", none, .formula value⟩ false] := by
  have isLine := @IsLine.of_body .camper false "r" none _ _ is_name_r
    (unmarked_registered .camper) read
  have text : (inlineText spelled).toList =
      ruleChars .camper false "r" none spelled.toList ++ '\n' :: [] := by
    rw [inlineText, String.toList_append, String.toList_append]
    rfl
  rw [text]
  exact .line isLine .none

theorem constant_text_lines {spelled : String} {value : Scalar}
    (read : ∀ rest, Ends isPathChar rest →
      signedLiteral (spelled.toList ++ rest) = .done value rest) :
    Lines (constantText spelled).toList
      [.constant "k" value.toJson, .rule .camper ⟨"r", none, .formula (.field "pricing.k" none)⟩ false] := by
  have isLine := @IsLine.of_literal "k" value _ is_name_k read
  have text : (constantText spelled).toList =
      ("pricing".toList ++ ' ' :: ("k".toList ++ ' ' :: '=' :: ' ' :: spelled.toList)) ++
        '\n' :: (inlineText "pricing.k").toList := by
    rw [constantText, String.toList_append, String.toList_append, String.toList_append,
      List.append_assoc]
    rfl
  rw [text]
  exact .line isLine (inline_text_lines fun _ => formula_constant)

-- The text is read as a script, and its rules pass every check.
def Defines (text : String) (rules : RuleSet) : Prop :=
  ∃ script, ofString text = .ok script ∧ ∀ strictness, script.toDraft.check strictness = .ok rules

theorem Lines.of_string {text : String} {values : List Statement} (lines : Lines text.toList values) :
    Script.ofString text = .ok (ofStatements values) := by
  rw [Script.ofString, ofChars, lines.read]

def inlineRules (value : Decimal) : RuleSet :=
  ⟨[⟨"r", none, .ok (.literal (.number value))⟩], [], .empty, Draft.defaultTotal⟩

def constantRules (value : Decimal) : RuleSet :=
  ⟨[⟨"r", none, .ok (.field "pricing.k" none)⟩], [],
    Json.Object.empty.insert "k" (Scalar.number value).toJson, Draft.defaultTotal⟩

theorem checks_single (strictness : Strictness) {draft : Draft} {formula : Formula}
    (rules : draft.camper = [⟨"r", none, .formula formula⟩] ∧ draft.registration = [] ∧
      draft.total = none)
    (reached : ∀ path ∈ formula.fields, Reach.defect? .camper ["r"] path = none) :
    draft.check strictness =
      .ok ⟨[⟨"r", none, .ok formula⟩], [], draft.constants, Draft.defaultTotal⟩ := by
  obtain ⟨camper, registration, total⟩ := rules
  have sound : formula.fields.findSome? (Reach.defect? .camper ["r"]) = none :=
    List.findSome?_eq_none_iff.mpr reached
  have body : RuleDraft.body .camper ["r"] ⟨"r", none, .formula formula⟩ = .ok formula := by
    rw [RuleDraft.body]
    dsimp only
    rw [sound]
  have checked : Draft.checkRules strictness .camper ["r"] [⟨"r", none, .formula formula⟩] =
      .ok [⟨"r", none, .ok formula⟩] := by
    unfold Draft.checkRules
    rw [body]
    cases strictness <;> rfl
  have distinct : Draft.checkNames .camper [] [⟨"r", none, .formula formula⟩] = .ok () := by
    have letters : ¬"r".toList.all Text.isBlank = true ∧ '.' ∉ "r".toList := by decide
    rw [Draft.checkNames, if_neg letters.1, if_neg letters.2, if_neg List.not_mem_nil]
    rfl
  have names : [(⟨"r", none, .formula formula⟩ : RuleDraft)].map (·.name) = ["r"] := rfl
  unfold Draft.check
  rw [camper, registration, total, names, distinct]
  dsimp only
  rw [checked]
  rfl

theorem inline_text_defines (number : WrittenNumber) (negative : Bool) :
    Defines (inlineText (number.signedText negative)) (inlineRules (number.signed negative)) := by
  have lines := @inline_text_lines (number.signedText negative) _ fun rest stops => by
    rw [WrittenNumber.signedText, String.toList_ofList]
    exact number.formula_signed negative stops
  have reached : ∀ path ∈ (Formula.literal (.number (number.signed negative))).fields,
      Reach.defect? .camper ["r"] path = none := by
    intro path member
    rw [Formula.fields] at member
    cases member
  exact ⟨_, lines.of_string, fun strictness => checks_single strictness ⟨rfl, rfl, rfl⟩ reached⟩

theorem constant_text_defines (number : WrittenNumber) (negative : Bool) :
    Defines (constantText (number.signedText negative)) (constantRules (number.signed negative)) := by
  have lines := @constant_text_lines (number.signedText negative) _ fun rest ends => by
    rw [WrittenNumber.signedText, String.toList_ofList]
    exact number.signed_literal_signed negative ends
  have reached : ∀ path ∈ (Formula.field "pricing.k" none).fields,
      Reach.defect? .camper ["r"] path = none := by
    intro path member
    rw [Formula.fields, List.mem_singleton] at member
    subst member
    decide
  exact ⟨_, lines.of_string, fun strictness => checks_single strictness ⟨rfl, rfl, rfl⟩ reached⟩

theorem Defines.well_named {text : String} {rules : RuleSet} (defines : Defines text rules) :
    rules.WellNamed := by
  obtain ⟨script, _, checked⟩ := defines
  exact Draft.check_well_named .lenient _ rules (checked .lenient)

end Script

namespace Pricing

open Script

variable {text : String} {value : Decimal} (form : Form) {index : Nat}
  (present : index < form.campers.length)

include present

theorem inline_amount (defines : Defines text (inlineRules value)) :
    ((inlineRules value).price form).camperAmount? index "r" = some (toAmount value) := by
  rw [price_camper_amount defines.well_named form index (.head _), List.getElem?_eq_getElem present]
  rfl

theorem constant_amount (defines : Defines text (constantRules value)) :
    ((constantRules value).price form).camperAmount? index "r" =
      (Scalar.readBack? value).map toAmount := by
  obtain ⟨written, json⟩ := Scalar.number_to_json_number value
  have parts : Path.ofString "pricing.k" = ["pricing", "k"] := by decide
  have held : (constantRules value).constants.get? "k" = some (.number written) := by
    rw [← json]
    rfl
  have undotted : ∀ entry ∈ (constantRules value).constants.members, '.' ∉ entry.1.toList := by
    intro entry member
    have same : entry = ("k", (Scalar.number value).toJson) := List.mem_singleton.mp member
    have letters : '.' ∉ "k".toList := by decide
    rw [same]
    exact letters
  have read := @Environment.lookup_number "pricing" "k" (by decide) _ undotted written held
  have bound := (camper_reads_constants (constantRules value) form form.campers[index] parts).trans read
  rw [price_camper_amount defines.well_named form index (.head _), List.getElem?_eq_getElem present,
    Option.bind_some, Scalar.read_back?_eq json]
  refine amount_of_number_field rfl (bound.trans ?_)
  cases written.toDecimal? <;> rfl

end Pricing

open Script Pricing in
theorem constant_charges_number_read_back (number : WrittenNumber) (negative : Bool) :
    let value := number.signed negative
    ∃ held inline, Defines (constantText (number.signedText negative)) held ∧
      Defines (inlineText (number.signedText negative)) inline ∧
      ((Scalar.readBack? value).isSome = true ↔
        value.mantissa < Scalar.readableBelow * tenTo value.scale) ∧
      ∀ form : Form, ∀ index < form.campers.length,
        (inline.price form).camperAmount? index "r" = some (toAmount value) ∧
          (held.price form).camperAmount? index "r" = (Scalar.readBack? value).map toAmount ∧
          (Scalar.Kept value → ∃ amount, (held.price form).camperAmount? index "r" = some amount ∧
            amount.value = (toAmount value).value) := by
  intro value
  have inline := inline_text_defines number negative
  have held := constant_text_defines number negative
  refine ⟨_, _, held, inline, Scalar.read_back?_is_some_iff value, fun form index present => ?_⟩
  have charged := constant_amount form present held
  refine ⟨inline_amount form present inline, charged, fun kept => ?_⟩
  obtain ⟨read, back, same⟩ := Scalar.read_back?_kept kept
  refine ⟨toAmount read, by rw [charged, back]; rfl, ?_⟩
  rw [toAmount, toAmount, Decimal.value_round_to, Decimal.value_round_to, same]

def oneCamper : Form := ⟨[.empty], .empty⟩

def eighths : Script.WrittenNumber where
  whole := "2".toList
  fraction := "625".toList
  value := ⟨false, 2625, 3, by decide, by decide⟩
  numeral := ⟨by decide, by decide, by decide⟩
  plain := by decide +kernel

theorem constant_charges_number_read_back_eighths :
    ∃ held, Script.Defines (Script.constantText "-2.625") held ∧
      ∃ amount, (held.price oneCamper).camperAmount? 0 "r" = some amount ∧ amount.value = -263 / 100 := by
  obtain ⟨held, _, defines, _, _, charges⟩ := constant_charges_number_read_back eighths true
  obtain ⟨_, _, kept⟩ := charges oneCamper 0 (by decide)
  obtain ⟨amount, charged, same⟩ := kept (.inr (by decide))
  exact ⟨held, defines, amount, charged, same.trans (by decide +kernel)⟩

-- The number is moved to the binary number next to it, whose shortest text has sixteen digits.
def seventeenDigits : Script.WrittenNumber where
  whole := "12345678901234".toList
  fraction := "565".toList
  value := ⟨false, 12345678901234565, 3, by decide, by decide⟩
  numeral := ⟨by decide, by decide, by decide⟩
  plain := by decide +kernel

open Script Pricing in
theorem constant_differs_from_inline :
    ∃ held inline, Defines (constantText "12345678901234.565") held ∧
      Defines (inlineText "12345678901234.565") inline ∧
      ((held.price oneCamper).camperAmount? 0 "r").map toString = some "12345678901234.56" ∧
      ((inline.price oneCamper).camperAmount? 0 "r").map toString = some "12345678901234.57" := by
  have held := constant_text_defines seventeenDigits false
  have inline := inline_text_defines seventeenDigits false
  have present : 0 < oneCamper.campers.length := by decide
  refine ⟨_, _, held, inline, ?_, ?_⟩
  · rw [constant_amount oneCamper present held]
    decide +kernel
  · rw [inline_amount oneCamper present inline]
    decide +kernel

end Tariff
