import Tariff.Json.Text
import Tariff.Proofs.Binary64.Text
import Tariff.Proofs.Json.Number
import Tariff.Proofs.Script.Token

set_option autoImplicit false

namespace Tariff

def Json.number? : Json → Option Json.Number
  | .number value => some value
  | _ => none

-- A value whose JSON text says the same in a script. A text has no control characters but tabs and
-- line feeds; a binary number is written without an exponent and is the one that stands for the
-- decimal of its digits.
def Json.Sayable : Json → Prop
  | .string text => ∀ c ∈ text.toList, ' ' ≤ c ∨ c = '\t' ∨ c = '\n'
  | .number (.binary value) =>
      'e' ∉ value.jsonText ∧
        ((Decimal.ofText? (value.withSign false).jsonText).bind fun d =>
          (Scalar.numberToJson (if value.negative then d.neg else d)).number?) = some (.binary value)
  | _ => True

instance : DecidablePred Json.Sayable
  | .string text => inferInstanceAs (Decidable (∀ c ∈ text.toList, ' ' ≤ c ∨ c = '\t' ∨ c = '\n'))
  | .number (.binary _) => inferInstanceAs (Decidable (_ ∧ _))
  | .null | .bool _ | .number (.whole _ _) | .array _ | .object _ => inferInstanceAs (Decidable True)

theorem Json.number?_eq_some {json : Json} {value : Json.Number} (made : json.number? = some value) :
    json = .number value := by
  cases json with
  | number held => exact congrArg Json.number (Option.some.inj made)
  | _ => cases made

namespace Script

open Reader

variable {text rest : List Char}

theorem whole_read {value : Int}
    (small : -9223372036854775808 ≤ value ∧ value ≤ 9223372036854775807) (isWord : IsWord value)
    (ends : Ends isPathChar rest) :
    ∃ d, signedLiteral ((toString value).toList ++ rest) = .done (.number d) rest ∧
      Scalar.numberToJson d = .number (.whole value isWord) := by
  have fits : value.natAbs ≤ Decimal.maxMantissa := by
    have large : Decimal.maxMantissa = 79228162514264337593543950335 := rfl
    omega
  have numeral := Decimal.to_digits_numeral value.natAbs
  have plain := Decimal.plain?_to_digits fits
  have chars := to_string_chars value
  rw [← Decimal.parts_text_whole (Nat.toDigits 10 value.natAbs)] at chars
  by_cases negative : value < 0
  · rw [if_pos negative] at chars
    refine ⟨_, by rw [chars]; exact signed_literal_minus numeral plain ends, ?_⟩
    refine Scalar.number_to_json_whole rfl ?_ small isWord
    change -(value.natAbs : Int) = value
    omega
  · rw [if_neg negative, List.nil_append] at chars
    refine ⟨⟨false, value.natAbs, 0, fits, by decide⟩, ?_, ?_⟩
    · rw [chars]
      exact signed_literal_literal ((Opens.digits numeral).append rest)
        (literal_number numeral plain ends)
    · refine Scalar.number_to_json_whole rfl ?_ small isWord
      change (value.natAbs : Int) = value
      omega

theorem binary_read {x : Binary64} (sayable : (Json.number (.binary x)).Sayable)
    (ends : Ends isPathChar rest) :
    ∃ d, signedLiteral (x.jsonText ++ rest) = .done (.number d) rest ∧
      Scalar.numberToJson d = .number (.binary x) := by
  obtain ⟨noExponent, same⟩ := sayable
  obtain ⟨d, read, made⟩ := Option.bind_eq_some_iff.mp same
  have restored : Scalar.numberToJson (if x.negative then d.neg else d) = .number (.binary x) :=
    Json.number?_eq_some made
  have sign := x.json_text_sign
  have noExponentInside : 'e' ∉ (x.withSign false).jsonText := by
    intro member
    rw [sign] at noExponent
    exact noExponent (List.mem_append_right _ member)
  obtain ⟨whole, fraction, numeral, text⟩ := (x.withSign false).json_text_numeral noExponentInside
  change _ = Decimal.partsText whole fraction at text
  rw [text] at read sign
  have plain := Decimal.plain?_parts_text numeral read
  rw [sign, Binary64.signText]
  cases negative : x.negative with
  | true =>
      rw [negative] at restored
      exact ⟨d.neg, signed_literal_minus numeral plain ends, restored⟩
  | false =>
      rw [negative] at restored
      refine ⟨d, ?_, restored⟩
      exact signed_literal_literal ((Opens.digits numeral).append rest)
        (literal_number numeral plain ends)

theorem string_tail_escape (c : Char) {value : List Char}
    (tail : stringTail text = .done value rest) :
    stringTail ('\\' :: c :: text) = .done (unescape c ++ value) rest := by
  simp [stringTail, tail]

theorem escape_char_read {c : Char} (visible : ' ' ≤ c ∨ c = '\t' ∨ c = '\n') {value : List Char}
    (tail : stringTail text = .done value rest) :
    stringTail (Json.escapeChar c ++ text) = .done (c :: value) rest := by
  by_cases quote : c = '"'
  · subst quote
    exact string_tail_escape '"' tail
  by_cases backslash : c = '\\'
  · subst backslash
    exact string_tail_escape '\\' tail
  by_cases tab : c = '\t'
  · subst tab
    exact string_tail_escape 't' tail
  by_cases feed : c = '\n'
  · subst feed
    exact string_tail_escape 'n' tail
  have printable : ' ' ≤ c := by simpa [tab, feed] using visible
  have noControl : ∀ d, ¬ ' ' ≤ d → c ≠ d := fun d control same => control (same ▸ printable)
  have plain : Json.escapeChar c = [c] := by
    rw [Json.escapeChar, if_neg quote, if_neg backslash, if_neg (noControl _ (by decide)),
      if_neg tab, if_neg feed, if_neg (noControl _ (by decide)), if_neg (noControl _ (by decide)),
      if_neg (Std.not_lt.mpr printable)]
  rw [plain]
  exact string_tail_plain quote backslash tail

theorem string_chars_read {text : String} (visible : (Json.string text).Sayable) :
    literal (Json.stringChars text ++ rest) = .done (.text text) rest := by
  have tail : ∀ chars : List Char, (∀ c ∈ chars, ' ' ≤ c ∨ c = '\t' ∨ c = '\n') →
      stringTail (chars.flatMap Json.escapeChar ++ '"' :: rest) = .done chars rest := by
    intro chars visible
    induction chars with
    | nil => rfl
    | cons c more ih =>
        obtain ⟨here, later⟩ := List.forall_mem_cons.mp visible
        rw [List.flatMap_cons, List.append_assoc]
        exact escape_char_read here (ih later)
  have chars : Json.stringChars text ++ rest =
      '"' :: (text.toList.flatMap Json.escapeChar ++ '"' :: rest) := by
    simp [Json.stringChars]
  have quote : exactly "\"" ('"' :: (text.toList.flatMap Json.escapeChar ++ '"' :: rest)) =
      .done () (text.toList.flatMap Json.escapeChar ++ '"' :: rest) := exactly_append "\"" _
  have read : stringLiteral ('"' :: (text.toList.flatMap Json.escapeChar ++ '"' :: rest)) =
      .done text rest := by
    rw [stringLiteral, bind_done quote, bind_done (tail text.toList visible), String.ofList_toList]
    rfl
  rw [chars]
  refine or_else_done ?_
  rw [bind_done read]
  rfl

theorem constant_read {value : Scalar} (sayable : value.toJson.Sayable)
    (ends : Ends isPathChar rest) :
    ∃ again : Scalar, signedLiteral (value.toJson.chars ++ rest) = .done again rest ∧
      again.toJson = value.toJson := by
  have endsWord : Ends isWordChar rest := ends.mono fun _ => is_path_char_of_word_char
  cases value with
  | null => exact ⟨.null, signed_literal_literal ⟨'n', _, rfl, rfl⟩ (literal_null endsWord), rfl⟩
  | bool choice =>
      cases choice with
      | true =>
          exact ⟨.bool true, signed_literal_literal ⟨'t', _, rfl, rfl⟩ (literal_true endsWord), rfl⟩
      | false =>
          exact ⟨.bool false, signed_literal_literal ⟨'f', _, rfl, rfl⟩ (literal_false endsWord), rfl⟩
  | text text =>
      exact ⟨.text text, signed_literal_literal ⟨'"', _, rfl, rfl⟩ (string_chars_read sayable), rfl⟩
  | number d =>
      change (Scalar.numberToJson d).Sayable at sayable
      change ∃ again : Scalar, signedLiteral ((Scalar.numberToJson d).chars ++ rest) =
        .done again rest ∧ again.toJson = Scalar.numberToJson d
      rcases Scalar.number_to_json_cases d with ⟨value, small, isWord, same⟩ | same | ⟨x, same⟩
      · obtain ⟨again, read, restored⟩ := whole_read small isWord ends
        rw [same]
        exact ⟨.number again, read, restored⟩
      · rw [same]
        exact ⟨.null, signed_literal_literal ⟨'n', _, rfl, rfl⟩ (literal_null endsWord), rfl⟩
      · rw [same] at sayable ⊢
        obtain ⟨again, read, restored⟩ := binary_read sayable ends
        exact ⟨.number again, read, restored⟩

end Script

end Tariff
