import Mathlib.Data.List.TakeWhile
import Tariff.Decimal.Text

set_option autoImplicit false

namespace Tariff.Decimal

def appendDigit (value : Nat) (c : Char) : Nat := value * 10 + digitValue c

theorem digits_value_append (left right : List Char) :
    digitsValue (left ++ right) = right.foldl appendDigit (digitsValue left) := by
  rw [digitsValue, List.foldl_append]
  rfl

theorem le_append_digits (value : Nat) (digits : List Char) :
    value ≤ digits.foldl appendDigit value := by
  induction digits generalizing value with
  | nil => exact Nat.le_refl _
  | cons c rest ih =>
      have longer : value ≤ appendDigit value c := by
        unfold appendDigit
        omega
      exact Nat.le_trans longer (ih _)

theorem Reading.digits_taken (r : Reading) (digits rest : List Char)
    (all : digits.all isDigit = true) (fits : digits.foldl appendDigit r.mantissa ≤ maxMantissa)
    (room : r.pointSeen = true → r.scale + digits.length ≤ maxScale) :
    r.digits (digits ++ rest) =
      Reading.digits
        { r with
          mantissa := digits.foldl appendDigit r.mantissa
          scale := if r.pointSeen then r.scale + digits.length else r.scale
          digitSeen := r.digitSeen || !digits.isEmpty } rest := by
  induction digits generalizing r with
  | nil => cases r; simp
  | cons c later ih =>
      rw [List.all_cons, Bool.and_eq_true] at all
      have longer : r.mantissa * 10 + digitValue c ≤ maxMantissa :=
        Nat.le_trans (le_append_digits (appendDigit r.mantissa c) later) fits
      have notFull : (r.pointSeen && decide (maxScale ≤ r.scale)) = false := by
        cases seen : r.pointSeen with
        | false => rfl
        | true =>
            have enough := room seen
            rw [List.length_cons] at enough
            simp only [Bool.true_and, decide_eq_false_iff_not]
            omega
      rw [List.cons_append, Reading.digits, if_pos all.1]
      dsimp only
      rw [if_neg (by simp [notFull]), if_pos longer, ih _ all.2 fits]
      · cases seen : r.pointSeen with
        | false => simp [appendDigit]
        | true => simp [appendDigit, Nat.add_assoc, Nat.add_comm 1]
      · intro seen
        have enough := room seen
        rw [List.length_cons] at enough
        dsimp only at seen ⊢
        rw [if_pos seen]
        omega

theorem Reading.digits_read (r : Reading) (digits : List Char) (all : digits.all isDigit = true)
    (fits : digits.foldl appendDigit r.mantissa ≤ maxMantissa)
    (room : r.pointSeen = true → r.scale + digits.length ≤ maxScale) :
    r.digits digits =
      Reading.finish
        { r with
          mantissa := digits.foldl appendDigit r.mantissa
          scale := if r.pointSeen then r.scale + digits.length else r.scale
          digitSeen := r.digitSeen || !digits.isEmpty } := by
  have taken := r.digits_taken digits [] all fits room
  rwa [List.append_nil, Reading.digits] at taken

def signedAs (d : Decimal) (negative : Bool) : Decimal :=
  { d with negative := negative && d.mantissa != 0 }

theorem Reading.finish_parts (d : Decimal) (negative pointSeen : Bool) :
    Reading.finish ⟨negative, d.mantissa, d.scale, pointSeen, true⟩ = .ok (d.signedAs negative) := by
  have made : ofParts? (negative && d.mantissa != 0) d.mantissa d.scale =
      some (d.signedAs negative) := by
    simp [ofParts?, d.mantissa_le, d.scale_le, signedAs]
  simp only [Reading.finish, if_true, made]

theorem digit_no_sign {c : Char} (digit : isDigit c = true) : c ≠ '-' ∧ c ≠ '+' := by
  constructor
  · intro same
    subst same
    exact absurd digit (by decide)
  · intro same
    subst same
    exact absurd digit (by decide)

structure Numeral (whole fraction : List Char) : Prop where
  nonempty : whole ≠ []
  wholeDigits : whole.all isDigit = true
  fractionDigits : fraction.all isDigit = true

-- The digits of a decimal, none of which is rounded off.
structure Parts (d : Decimal) (whole fraction : List Char) : Prop
    extends Numeral whole fraction where
  length : fraction.length = d.scale
  value : digitsValue (whole ++ fraction) = d.mantissa

def partsText (whole fraction : List Char) : List Char :=
  whole ++ if fraction.isEmpty then [] else '.' :: fraction

theorem Numeral.head {whole fraction : List Char} (numeral : Numeral whole fraction) :
    ∃ c more, partsText whole fraction = c :: more ∧ isDigit c = true := by
  obtain ⟨c, more, same⟩ := List.exists_cons_of_ne_nil numeral.nonempty
  have digits := numeral.wholeDigits
  rw [same, List.all_cons, Bool.and_eq_true] at digits
  rw [partsText, same]
  exact ⟨c, _, rfl, digits.1⟩

theorem plain?_unsigned {c : Char} (digit : isDigit c = true) (rest : List Char) :
    plain? (c :: rest) = Reading.digits ⟨false, 0, 0, false, false⟩ (c :: rest) := by
  obtain ⟨notMinus, notPlus⟩ := digit_no_sign digit
  unfold plain?
  split
  · rename_i more same
    exact absurd (List.cons.inj same).1 notMinus
  · rename_i more same
    exact absurd (List.cons.inj same).1 notPlus
  · rfl

-- The digits of the whole part have been read, and what follows is the fraction, if there is one.
theorem Reading.fraction_read {d : Decimal} {whole fraction : List Char}
    (parts : d.Parts whole fraction) (negative : Bool) :
    Reading.digits ⟨negative, digitsValue whole, 0, false, true⟩
        (if fraction.isEmpty then [] else '.' :: fraction) = .ok (d.signedAs negative) := by
  have value := parts.value
  rw [digits_value_append] at value
  cases fraction with
  | nil =>
      have scale : d.scale = 0 := parts.length.symm
      have finished := Reading.finish_parts d negative false
      rw [scale, ← value] at finished
      exact finished
  | cons first more =>
      have fits : (first :: more).foldl appendDigit (digitsValue whole) ≤ maxMantissa :=
        value ▸ d.mantissa_le
      have room : 0 + (first :: more).length ≤ maxScale := by
        rw [parts.length, Nat.zero_add]
        exact d.scale_le
      have seen := Reading.digits_read ⟨negative, digitsValue whole, 0, true, true⟩ (first :: more)
        parts.fractionDigits fits fun _ => room
      have finished := Reading.finish_parts d negative true
      rw [← value, ← parts.length] at finished
      rw [if_pos rfl, Nat.zero_add] at seen
      exact seen.trans finished

theorem Reading.parts_read {d : Decimal} {whole fraction : List Char}
    (parts : d.Parts whole fraction) (negative : Bool) :
    Reading.digits ⟨negative, 0, 0, false, false⟩ (partsText whole fraction) =
      .ok (d.signedAs negative) := by
  have value := parts.value
  rw [digits_value_append] at value
  have fits : whole.foldl appendDigit 0 ≤ maxMantissa :=
    Nat.le_trans (le_append_digits _ fraction) (value ▸ d.mantissa_le)
  have someDigits : whole.isEmpty = false := List.isEmpty_eq_false_iff.mpr parts.nonempty
  have taken := Reading.digits_taken ⟨negative, 0, 0, false, false⟩ whole
    (if fraction.isEmpty then [] else '.' :: fraction) parts.wholeDigits fits (by simp)
  rw [someDigits] at taken
  rw [partsText, taken]
  exact Reading.fraction_read parts negative

theorem plain?_parts {d : Decimal} {whole fraction : List Char} (parts : d.Parts whole fraction) :
    plain? (partsText whole fraction) = .ok d.abs := by
  obtain ⟨c, more, same, digit⟩ := parts.toNumeral.head
  have start : plain? (partsText whole fraction) =
      Reading.digits ⟨false, 0, 0, false, false⟩ (partsText whole fraction) := by
    rw [same]
    exact plain?_unsigned digit _
  rw [start]
  exact Reading.parts_read parts false

theorem is_digit_eq (c : Char) : isDigit c = c.isDigit := by
  simp [isDigit, Char.isDigit]
  rfl

theorem to_digits_all (n : Nat) : (Nat.toDigits 10 n).all isDigit = true := by
  rw [List.all_eq_true]
  intro c member
  rw [is_digit_eq]
  exact Nat.isDigit_of_mem_toDigits (by decide) (by decide) member

theorem of_digit_chars_eq_foldl (digits : List Char) (value : Nat) :
    Nat.ofDigitChars 10 digits value = digits.foldl appendDigit value := by
  induction digits generalizing value with
  | nil => rfl
  | cons c rest ih =>
      rw [Nat.ofDigitChars_cons, ih, List.foldl_cons, appendDigit, digitValue, Nat.mul_comm]

theorem to_digits_value (n : Nat) : digitsValue (Nat.toDigits 10 n) = n := by
  have back : Nat.ofDigitChars 10 (Nat.toDigits 10 n) 0 = n :=
    Nat.ofDigitChars_toDigits (by decide) (by decide)
  rwa [of_digit_chars_eq_foldl] at back

theorem pad_left_all {digits : List Char} (all : digits.all isDigit = true) (width : Nat) :
    (padLeft width digits).all isDigit = true := by
  have zero : isDigit '0' = true := by decide
  rw [padLeft, List.all_append, all, List.all_replicate, zero]
  simp

theorem pad_left_value (digits : List Char) (width : Nat) :
    digitsValue (padLeft width digits) = digitsValue digits := by
  have zeros (count : Nat) : digitsValue (List.replicate count '0') = 0 := by
    induction count with
    | zero => rfl
    | succ count ih =>
        rw [List.replicate_succ', digits_value_append, ih]
        rfl
  rw [padLeft, digits_value_append, zeros]
  rfl

theorem le_length_pad_left (digits : List Char) (width : Nat) :
    width ≤ (padLeft width digits).length := by
  rw [padLeft, List.length_append, List.length_replicate]
  omega

def digitsOf (d : Decimal) : List Char := padLeft (d.scale + 1) (Nat.toDigits 10 d.mantissa)

def wholeDigits (d : Decimal) : List Char := d.digitsOf.take (d.digitsOf.length - d.scale)

def fractionDigits (d : Decimal) : List Char := d.digitsOf.drop (d.digitsOf.length - d.scale)

theorem parts (d : Decimal) : d.Parts d.wholeDigits d.fractionDigits := by
  have enough : d.scale + 1 ≤ d.digitsOf.length := le_length_pad_left _ _
  have all : d.digitsOf.all isDigit = true := pad_left_all (to_digits_all _) _
  have halves : d.wholeDigits ++ d.fractionDigits = d.digitsOf := List.take_append_drop _ _
  have allHalves := all
  rw [← halves, List.all_append, Bool.and_eq_true] at allHalves
  refine ⟨⟨?_, allHalves.1, allHalves.2⟩, ?_, ?_⟩
  · apply List.ne_nil_of_length_pos
    rw [wholeDigits, List.length_take]
    omega
  · rw [fractionDigits, List.length_drop]
    omega
  · rw [halves, digitsOf, pad_left_value, to_digits_value]

theorem render_chars (d : Decimal) :
    d.render.toList =
      (if d.negative then ['-'] else []) ++ partsText d.wholeDigits d.fractionDigits := by
  have empty : d.fractionDigits.isEmpty = true ↔ d.scale = 0 := by
    rw [List.isEmpty_iff_length_eq_zero, d.parts.length]
  rw [render, String.toList_ofList, partsText, List.append_assoc]
  simp only [empty]
  rfl

def IsNumeral (most : Nat) (text : List Char) : Prop :=
  ∃ whole fraction, Numeral whole fraction ∧ whole.length + fraction.length ≤ most ∧
    text = partsText whole fraction

theorem IsNumeral.mono {most more : Nat} {text : List Char} (isNumeral : IsNumeral most text)
    (le : most ≤ more) : IsNumeral more text := by
  obtain ⟨whole, fraction, numeral, length, same⟩ := isNumeral
  exact ⟨whole, fraction, numeral, Nat.le_trans length le, same⟩

theorem to_digits_numeral (n : Nat) : Numeral (Nat.toDigits 10 n) [] :=
  ⟨Nat.toDigits_ne_nil, to_digits_all n, rfl⟩

theorem parts_text_whole (whole : List Char) : partsText whole [] = whole := by
  rw [partsText, List.isEmpty_nil, if_pos rfl, List.append_nil]

theorem plain?_to_digits {n : Nat} (fits : n ≤ maxMantissa) :
    plain? (partsText (Nat.toDigits 10 n) []) = .ok ⟨false, n, 0, fits, by decide⟩ := by
  have parts : Parts ⟨false, n, 0, fits, by decide⟩ (Nat.toDigits 10 n) [] :=
    ⟨to_digits_numeral n, rfl, by rw [List.append_nil, to_digits_value]⟩
  exact plain?_parts parts

theorem parts_text_no_mark {whole fraction : List Char} (numeral : Numeral whole fraction) :
    ∀ c ∈ partsText whole fraction, (c == 'e' || c == 'E') = false := by
  have digits : ∀ c, isDigit c = true → (c == 'e' || c == 'E') = false := by
    intro c digit
    cases mark : (c == 'e' || c == 'E') with
    | false => rfl
    | true =>
        rw [Bool.or_eq_true, beq_iff_eq, beq_iff_eq] at mark
        rcases mark with same | same <;> (subst same; cases digit)
  intro c member
  rw [partsText, List.mem_append] at member
  rcases member with front | behind
  · exact digits c (List.all_eq_true.mp numeral.wholeDigits c front)
  · cases fraction with
    | nil => cases behind
    | cons first more =>
        rcases List.mem_cons.mp behind with same | later
        · rw [same]
          rfl
        · exact digits c (List.all_eq_true.mp numeral.fractionDigits c later)

theorem plain?_parts_text {whole fraction : List Char} {d : Decimal}
    (numeral : Numeral whole fraction) (read : ofText? (partsText whole fraction) = some d) :
    plain? (partsText whole fraction) = .ok d := by
  have noPower : (partsText whole fraction).dropWhile (fun c => !(c == 'e' || c == 'E')) = [] := by
    rw [List.dropWhile_eq_nil_iff]
    intro c member
    rw [parts_text_no_mark numeral c member]
    rfl
  rw [ofText?] at read
  cases plain : plain? (partsText whole fraction) with
  | ok other =>
      rw [plain] at read
      cases read
      rfl
  | error error =>
      rw [plain] at read
      dsimp only at read
      rw [scientific?] at read
      dsimp only at read
      rw [noPower] at read
      cases read

end Tariff.Decimal
