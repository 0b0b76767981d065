import Tariff.Proofs.Decimal.Text
import Tariff.Proofs.Json.Number
import Tariff.Json.Document
import Tariff.Json.Text

set_option autoImplicit false

namespace Tariff

namespace Json

mutual

def Whole : Json → Prop
  | .number (.binary _) => False
  | .array items => WholeItems items
  | .object members => WholeMembers members
  | _ => True

def WholeItems : List Json → Prop
  | [] => True
  | item :: rest => item.Whole ∧ WholeItems rest

def WholeMembers : List (String × Json) → Prop
  | [] => True
  | (_, value) :: rest => value.Whole ∧ WholeMembers rest

end

namespace Document

theorem hex_value?_hex_digit : ∀ n < 16, hexValue? (hexDigit n) = some n := by decide

theorem hex_unit?_control {n : Nat} (control : n < 32) :
    hexUnit? '0' '0' (hexDigit (n / 16)) (hexDigit (n % 16)) = some n := by
  have zero : hexValue? '0' = some 0 := rfl
  rw [hexUnit?, zero, hex_value?_hex_digit _ (by omega), hex_value?_hex_digit _ (by omega)]
  simp only [Option.some.injEq]
  omega

theorem read_string_control {c : Char} (control : c.toNat < 32) (rest : List Char) :
    readString none
        ('\\' :: 'u' :: '0' :: '0' :: hexDigit (c.toNat / 16) :: hexDigit (c.toNat % 16) :: rest) =
      (readString none rest).push c := by
  have leading : isLeading c.toNat = false := by
    simp [isLeading]
    omega
  have trailing : isTrailing c.toNat = false := by
    simp [isTrailing]
    omega
  rw [readString, hex_unit?_control control]
  simp [paired?, leading, trailing, StringEnd.spoilIf, Char.ofNat_toNat]

theorem read_string_printed {c : Char} (notQuote : c ≠ '"') (notSlash : c ≠ '\\')
    (printed : ¬c < ' ') (rest : List Char) :
    readString none (c :: rest) = (readString none rest).push c := by
  simp [readString, notSlash, printed, StringEnd.spoilIf]

theorem read_string_escape (c : Char) (rest : List Char) :
    readString none (escapeChar c ++ rest) = (readString none rest).push c := by
  by_cases named : c ∈ ['"', '\\', '\x08', '\t', '\n', '\x0c', '\r']
  · simp only [List.mem_cons, List.not_mem_nil, or_false] at named
    rcases named with same | same | same | same | same | same | same <;> (subst same; rfl)
  · simp only [List.mem_cons, List.not_mem_nil, or_false, not_or] at named
    by_cases control : c < ' '
    · simpa [escapeChar, named, control] using read_string_control control rest
    · simpa [escapeChar, named, control] using read_string_printed named.1 named.2.1 control rest

theorem read_string_chars (value rest : List Char) :
    readString none (value.flatMap escapeChar ++ '"' :: rest) = .closed (some value) rest := by
  induction value with
  | nil => rfl
  | cons c later ih =>
      rw [List.flatMap_cons, List.append_assoc, read_string_escape, ih]
      rfl

inductive Ended : List Char → Prop
  | nothing : Ended []
  | comma (rest : List Char) : Ended (',' :: rest)
  | bracket (rest : List Char) : Ended (']' :: rest)
  | brace (rest : List Char) : Ended ('\x7d' :: rest)

theorem digit_char_nonzero : ∀ n < 10, 0 < n → n.digitChar ≠ '0' := by decide

theorem to_digits_opens {n : Nat} (positive : 0 < n) :
    ∃ c more, Nat.toDigits 10 n = c :: more ∧ c ≠ '0' := by
  induction n using Nat.strongRecOn with
  | ind n ih =>
      by_cases single : n < 10
      · exact ⟨n.digitChar, [], Nat.toDigits_of_lt_base single, digit_char_nonzero n single positive⟩
      · obtain ⟨c, more, digits, nonzero⟩ := ih (n / 10) (by omega) (by omega)
        refine ⟨c, more ++ [(n % 10).digitChar], ?_, nonzero⟩
        rw [Nat.toDigits_of_base_le (by decide) (by omega), digits, List.cons_append]

theorem to_digits_head (n : Nat) : ∃ c more, Nat.toDigits 10 n = c :: more ∧ Decimal.isDigit c = true := by
  obtain ⟨c, more, digits, digit⟩ := (Decimal.to_digits_numeral n).head
  exact ⟨c, more, (Decimal.parts_text_whole _).symm.trans digits, digit⟩

theorem digits_ended {digits rest : List Char} (all : digits.all Decimal.isDigit = true)
    (ended : Ended rest) :
    (digits ++ rest).takeWhile Decimal.isDigit = digits ∧
      (digits ++ rest).dropWhile Decimal.isDigit = rest := by
  have each := List.all_eq_true.mp all
  rw [List.takeWhile_append_of_pos each, List.dropWhile_append_of_pos each]
  cases ended <;> exact ⟨by simp [Decimal.isDigit], rfl⟩

theorem read_fraction_ended (negative : Bool) (whole : List Char) {rest : List Char}
    (ended : Ended rest) :
    readFraction negative whole rest = (wholeNumber negative whole, some rest) := by
  cases ended <;> rfl

theorem read_number_digits (negative : Bool) (n : Nat) {rest : List Char} (ended : Ended rest) :
    readNumber negative (Nat.toDigits 10 n ++ rest) =
      (wholeNumber negative (Nat.toDigits 10 n), some rest) := by
  obtain ⟨taken, left⟩ := digits_ended (Decimal.to_digits_all n) ended
  rw [readNumber, taken, left]
  rcases Nat.eq_zero_or_pos n with zero | positive
  · subst zero
    exact read_fraction_ended negative ['0'] ended
  · obtain ⟨c, more, digits, nonzero⟩ := to_digits_opens positive
    rw [digits]
    simp [nonzero, read_fraction_ended negative (c :: more) ended]

theorem whole_number_eq {negative : Bool} {digits : List Char} {value : Int} (isWord : IsWord value)
    (same : (if negative then -(Decimal.digitsValue digits : Int) else Decimal.digitsValue digits) =
      value)
    (noNegativeZero : ¬(negative ∧ Decimal.digitsValue digits = 0)) :
    wholeNumber negative digits = .number (.whole value isWord) := by
  subst same
  exact dif_pos ⟨isWord, noNegativeZero⟩

theorem digit_apart {c : Char} (digit : Decimal.isDigit c = true) {others : List Char}
    (noDigit : others.any Decimal.isDigit = false) : ∀ other ∈ others, c ≠ other := by
  intro other member same
  have held : others.any Decimal.isDigit = true := List.any_eq_true.mpr ⟨other, member, same ▸ digit⟩
  rw [noDigit] at held
  cases held

theorem is_space_digit {c : Char} (digit : Decimal.isDigit c = true) : isSpace c = false := by
  have apart : ∀ other ∈ [' ', '\n', '\t', '\r'], c ≠ other := digit_apart digit (by decide)
  simp only [List.forall_mem_cons, List.not_mem_nil, false_implies, implies_true, and_true] at apart
  simp [isSpace, apart]

theorem read_value_digit {c : Char} (digit : Decimal.isDigit c = true) (fuel : Nat)
    (more : List Char) : readValue (fuel + 1) (c :: more) = readNumber false (c :: more) := by
  have apart : ∀ other ∈ ['"', '[', '\x7b', '-', 'n', 't', 'f'], c ≠ other :=
    digit_apart digit (by decide)
  simp only [List.forall_mem_cons, List.not_mem_nil, false_implies, implies_true, and_true] at apart
  have opens : skipSpace (c :: more) = c :: more := by simp [skipSpace, is_space_digit digit]
  simp [readValue, opens, apart, digit]

theorem read_value_number {value : Int} (isWord : IsWord value) (fuel : Nat) {rest : List Char}
    (ended : Ended rest) :
    readValue (fuel + 1) ((Number.whole value isWord).text ++ rest) =
      (.number (.whole value isWord), some rest) := by
  rw [Number.text, to_string_chars]
  by_cases below : value < 0
  · rw [if_pos below]
    change readNumber true (Nat.toDigits 10 value.natAbs ++ rest) = _
    rw [read_number_digits true _ ended, whole_number_eq isWord]
    · rw [Decimal.to_digits_value, if_pos rfl]
      omega
    · rw [Decimal.to_digits_value]
      omega
  · rw [if_neg below, List.nil_append]
    obtain ⟨c, more, digits, digit⟩ := to_digits_head value.natAbs
    have whole := read_number_digits false value.natAbs ended
    rw [digits, List.cons_append] at whole ⊢
    rw [read_value_digit digit, whole, ← digits, whole_number_eq isWord]
    · rw [Decimal.to_digits_value, if_neg (by decide)]
      omega
    · simp

theorem chars_open {json : Json} (whole : json.Whole) :
    ∃ c more, json.chars = c :: more ∧ ¬isSpace c = true ∧ c ≠ ']' := by
  cases json with
  | null => exact ⟨_, _, rfl, by decide, by decide⟩
  | bool value => cases value <;> exact ⟨_, _, rfl, by decide, by decide⟩
  | string value => exact ⟨_, _, rfl, by decide, by decide⟩
  | array items => exact ⟨_, _, rfl, by decide, by decide⟩
  | object members => exact ⟨_, _, rfl, by decide, by decide⟩
  | number number =>
      cases number with
      | binary value => cases whole
      | whole value isWord =>
          rw [chars, Number.text, to_string_chars]
          by_cases below : value < 0
          · rw [if_pos below]
            exact ⟨_, _, rfl, by decide, by decide⟩
          · rw [if_neg below, List.nil_append]
            obtain ⟨c, more, digits, digit⟩ := to_digits_head value.natAbs
            have apart : ∀ other ∈ [']'], c ≠ other := digit_apart digit (by decide)
            exact ⟨c, more, digits, by simp [is_space_digit digit], List.forall_mem_singleton.mp apart⟩

theorem more_items_chars_cons (item : Json) (rest : List Json) :
    moreItemsChars (item :: rest) = ',' :: itemsChars (item :: rest) := rfl

theorem more_members_chars_cons (member : String × Json) (rest : List (String × Json)) :
    moreMembersChars (member :: rest) = ',' :: membersChars (member :: rest) := rfl

section

variable {fuel : Nat} {text rest : List Char}

theorem skip_space_quoted (value : String) :
    skipSpace (stringChars value ++ rest) =
      '"' :: (value.toList.flatMap escapeChar ++ '"' :: rest) := by
  simp [stringChars, skipSpace, isSpace]

theorem read_value_string (value : String) :
    readValue (fuel + 1) (stringChars value ++ rest) = (.string value, some rest) := by
  rw [readValue, skip_space_quoted]
  simp only [read_string_chars, String.ofList_toList]

theorem read_value_items {c : Char} {more : List Char} (opens : text = c :: more)
    (notSpace : ¬isSpace c = true) (notClosed : c ≠ ']') :
    readValue (fuel + 1) ('[' :: text) =
      (.array (readItems fuel text).1, (readItems fuel text).2) := by
  subst opens
  have opened : skipSpace ('[' :: c :: more) = '[' :: c :: more := rfl
  have skipped : skipSpace (c :: more) = c :: more := List.dropWhile_cons_of_neg notSpace
  rw [readValue, opened]
  simp [skipped, notClosed]

theorem read_value_members (key : String) :
    readValue (fuel + 1) ('\x7b' :: (stringChars key ++ text)) =
      (.object (readMembers fuel (stringChars key ++ text)).1,
        (readMembers fuel (stringChars key ++ text)).2) := rfl

theorem read_items_last {head : Document}
    (read : readValue fuel text = (head, some (']' :: rest))) :
    readItems (fuel + 1) text = (.item head .closed, some rest) := by
  rw [readItems, read]
  rfl

theorem read_items_next {head : Document}
    (read : readValue fuel text = (head, some (',' :: rest))) :
    readItems (fuel + 1) text =
      (.item head (readItems fuel rest).1, (readItems fuel rest).2) := by
  rw [readItems, read]
  rfl

theorem read_members_last (key : String) {value : Document}
    (read : readValue fuel text = (value, some ('\x7d' :: rest))) :
    readMembers (fuel + 1) (stringChars key ++ ':' :: text) =
      (.member (some key) value .closed, some rest) := by
  have colon : skipSpace (':' :: text) = ':' :: text := rfl
  rw [readMembers, skip_space_quoted]
  simp only [read_string_chars, colon, read, Option.map_some, String.ofList_toList]
  rfl

theorem read_members_next (key : String) {value : Document}
    (read : readValue fuel text = (value, some (',' :: rest))) :
    readMembers (fuel + 1) (stringChars key ++ ':' :: text) =
      (.member (some key) value (readMembers fuel rest).1, (readMembers fuel rest).2) := by
  have colon : skipSpace (':' :: text) = ':' :: text := rfl
  rw [readMembers, skip_space_quoted]
  simp only [read_string_chars, colon, read, Option.map_some, String.ofList_toList]
  rfl

end

mutual

theorem read_value_chars (json : Json) (whole : json.Whole) (fuel : Nat)
    (enough : json.chars.length ≤ fuel) {rest : List Char} (ended : Ended rest) :
    readValue fuel (json.chars ++ rest) = (ofJson json, some rest) := by
  obtain ⟨c, more, opens, _⟩ := chars_open whole
  cases fuel with
  | zero =>
      rw [opens] at enough
      cases enough
  | succ fuel =>
      cases json with
      | null => rfl
      | bool value => cases value <;> rfl
      | number number =>
          cases number with
          | binary value => cases whole
          | whole value isWord => exact read_value_number isWord fuel ended
      | string value => exact read_value_string value
      | array items =>
          cases items with
          | nil => rfl
          | cons first later =>
              have items := read_items_chars (first :: later) (List.cons_ne_nil _ _) whole fuel
                (Nat.le_of_succ_le_succ enough) rest
              obtain ⟨head, others, same, notSpace, notClosed⟩ := chars_open whole.1
              have start : itemsChars (first :: later) ++ rest =
                  head :: (others ++ moreItemsChars later ++ rest) := by
                simp [itemsChars, same]
              rw [chars, List.cons_append, read_value_items start notSpace notClosed, items]
              rfl
      | object members =>
          cases members with
          | nil => rfl
          | cons member later =>
              obtain ⟨key, value⟩ := member
              have members := read_members_chars ((key, value) :: later) (List.cons_ne_nil _ _) whole fuel
                (Nat.le_of_succ_le_succ enough) rest
              rw [chars, List.cons_append]
              rw [membersChars, List.append_assoc, List.append_assoc] at members ⊢
              rw [read_value_members, members]
              rfl

theorem read_items_chars (items : List Json) (nonempty : items ≠ []) (whole : WholeItems items)
    (fuel : Nat) (enough : (itemsChars items).length ≤ fuel) (rest : List Char) :
    readItems fuel (itemsChars items ++ rest) = (ofItems items, some rest) := by
  cases items with
  | nil => exact absurd rfl nonempty
  | cons first later =>
      obtain ⟨wholeFirst, wholeLater⟩ := whole
      rw [itemsChars, List.length_append] at enough
      rw [itemsChars, List.append_assoc]
      cases later with
      | nil =>
          cases fuel with
          | zero => cases enough
          | succ fuel =>
              have head := read_value_chars first wholeFirst fuel (Nat.le_of_succ_le_succ enough)
                (.bracket rest)
              exact read_items_last head
      | cons second more =>
          rw [more_items_chars_cons, List.length_cons] at enough
          rw [more_items_chars_cons]
          cases fuel with
          | zero => omega
          | succ fuel =>
              have head := read_value_chars first wholeFirst fuel (by omega)
                (.comma (itemsChars (second :: more) ++ rest))
              have tail := read_items_chars (second :: more) (List.cons_ne_nil _ _) wholeLater fuel
                (by omega) rest
              rw [List.cons_append, read_items_next head, tail]
              rfl

theorem read_members_chars (members : List (String × Json)) (nonempty : members ≠ [])
    (whole : WholeMembers members) (fuel : Nat) (enough : (membersChars members).length ≤ fuel)
    (rest : List Char) :
    readMembers fuel (membersChars members ++ rest) = (ofMembers members, some rest) := by
  cases members with
  | nil => exact absurd rfl nonempty
  | cons member later =>
      obtain ⟨key, value⟩ := member
      obtain ⟨wholeValue, wholeLater⟩ := whole
      rw [membersChars, List.length_append, List.length_append, List.length_cons] at enough
      rw [membersChars, List.append_assoc, List.append_assoc, List.cons_append]
      cases fuel with
      | zero => omega
      | succ fuel =>
          cases later with
          | nil =>
              have head := read_value_chars value wholeValue fuel (by omega) (.brace rest)
              exact read_members_last key head
          | cons second more =>
              rw [more_members_chars_cons, List.length_cons] at enough
              rw [more_members_chars_cons]
              have head := read_value_chars value wholeValue fuel (by omega)
                (.comma (membersChars (second :: more) ++ rest))
              have tail := read_members_chars (second :: more) (List.cons_ne_nil _ _) wholeLater fuel
                (by omega) rest
              rw [List.cons_append, read_members_next key head, tail]
              rfl

end

theorem of_chars_chars {json : Json} (whole : json.Whole) :
    ofChars json.chars = (ofJson json, some []) := by
  have read := read_value_chars json whole (2 * json.chars.length + 2) (by omega) .nothing
  rwa [List.append_nil] at read

end Document

end Json

end Tariff
