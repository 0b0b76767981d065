import Mathlib.Data.List.TakeWhile
import Tariff.Script.Token
import Tariff.Proofs.Decimal.Text
import Tariff.Proofs.Script.Reading

set_option autoImplicit false

namespace Tariff

section

variable (good : Char → Prop) [DecidablePred good] (chars : List Char)

-- What is said of the characters of a list is decided for these, not for all characters.
instance (priority := high) decidableForallChars :
    Decidable (∀ c ∈ chars, good c) := List.decidableBAll good chars

instance (priority := high) decidableExistsChar :
    Decidable (∃ c ∈ chars, good c) := List.decidableBEx good chars

end

-- A text that stands between quotes as it is: it ends there, and no backslash of it stands for
-- another character.
def isVerbatim : List Char → Bool
  | [] => true
  | ['\\'] => false
  | '\\' :: c :: rest => c ∉ ['"', '\\', 'n', 't'] && isVerbatim rest
  | c :: rest => c != '"' && isVerbatim rest

def Scalar.IsVerbatim : Scalar → Prop
  | .text value => isVerbatim value.toList = true
  | _ => True

instance : DecidablePred Scalar.IsVerbatim
  | .text value => inferInstanceAs (Decidable (isVerbatim value.toList = true))
  | .null | .bool _ | .number _ => inferInstanceAs (Decidable True)

def Scalar.isNegative : Scalar → Bool
  | .number value => value.negative
  | _ => false

namespace Script

open Reader

variable {text rest : List Char}

def Ends (accepts : Char → Bool) (rest : List Char) : Prop := ∀ c ∈ rest.head?, accepts c = false

theorem Ends.mono {accepts narrower : Char → Bool} (ends : Ends accepts rest)
    (narrow : ∀ c, narrower c = true → accepts c = true) : Ends narrower rest := by
  intro c first
  have refused := ends c first
  cases accepted : narrower c with
  | false => rfl
  | true => rw [narrow c accepted] at refused; cases refused

def isMark (c : Char) : Bool := c != '#' && !isSpace c

theorem skip_blank_mark {c : Char} (mark : isMark c = true) (rest : List Char) :
    skipBlank (c :: rest) = c :: rest := by
  simp only [isMark, Bool.and_eq_true, bne_iff_ne, Bool.not_eq_true'] at mark
  rw [skipBlank, if_neg mark.1, if_neg (by rw [mark.2]; exact Bool.false_ne_true)]

theorem skip_blank_space (rest : List Char) : skipBlank (' ' :: rest) = skipBlank rest := by
  rw [skipBlank, if_neg (by decide), if_pos (by decide)]

theorem is_mark_of_word_char {c : Char} (word : isWordChar c = true) : isMark c = true := by
  cases mark : isMark c with
  | true => rfl
  | false =>
      simp only [isMark, isSpace, Bool.and_eq_false_iff, bne_eq_false_iff_eq, Bool.not_eq_false',
        Bool.or_eq_true, beq_iff_eq] at mark
      rcases mark with same | (((same | same) | same) | same) | same <;>
        exact absurd word (by subst same; decide)

mutual

theorem skip_blank_again (text : List Char) : skipBlank (skipBlank text) = skipBlank text := by
  cases text with
  | nil => rfl
  | cons c rest =>
      by_cases comment : c = '#'
      · rw [skipBlank, if_pos comment]
        rcases skip_comment_again (c :: rest) rest with kept | settled
        · rw [kept, skipBlank, if_pos comment, kept]
        · exact settled
      · by_cases space : isSpace c = true
        · rw [skipBlank, if_neg comment, if_pos space]
          exact skip_blank_again rest
        · have kept : skipBlank (c :: rest) = c :: rest := by
            rw [skipBlank, if_neg comment, if_neg space]
          rw [kept, kept]

theorem skip_comment_again (start text : List Char) :
    skipComment start text = start ∨
      skipBlank (skipComment start text) = skipComment start text := by
  unfold skipComment
  split
  · exact .inr rfl
  · rename_i rest
    exact .inr (skip_blank_again rest)
  · rename_i rest
    exact .inr (skip_blank_again rest)
  · exact .inl rfl
  · rename_i rest _ _ _
    exact skip_comment_again start rest

end

def SkipsSpace {α : Type} (read : Reader α) : Prop := ∀ text, read (' ' :: text) = read text

theorem SkipsSpace.blank : SkipsSpace blank := by
  intro text
  rw [Script.blank, Script.blank, skip_blank_space]

theorem SkipsSpace.bind {α β : Type} {read : Reader α} {next : α → Reader β}
    (skips : SkipsSpace read) : SkipsSpace (read >>= next) := fun text => bind_same (skips text)

def opensOperand (c : Char) : Bool := isWordChar c || c == '(' || c == '"'

def Opens (text : List Char) : Prop := ∃ c more, text = c :: more ∧ opensOperand c = true

theorem Opens.append (opens : Opens text) (rest : List Char) : Opens (text ++ rest) := by
  obtain ⟨c, more, same, first⟩ := opens
  exact ⟨c, more ++ rest, by rw [same, List.cons_append], first⟩

theorem Opens.head_ne (opens : Opens text) {d : Char} (different : opensOperand d = false) :
    text.head? ≠ some d := by
  obtain ⟨c, more, same, first⟩ := opens
  subst same
  intro head
  cases head
  rw [first] at different
  cases different

theorem Opens.skip_blank (opens : Opens text) : skipBlank text = text := by
  obtain ⟨c, more, same, first⟩ := opens
  subst same
  apply skip_blank_mark
  simp only [opensOperand, Bool.or_eq_true, beq_iff_eq] at first
  rcases first with (word | same) | same
  · exact is_mark_of_word_char word
  · subst same
    decide
  · subst same
    decide

theorem behind?_head {c : Char} {more : List Char} (different : text.head? ≠ some c) :
    behind? (c :: more) text = none := by
  cases text with
  | nil => rfl
  | cons d later =>
      rw [behind?, if_neg]
      intro same
      exact different (congrArg some same)

theorem exactly_misses_head {word : String} {c : Char} (starts : word.toList.head? = some c)
    (different : text.head? ≠ some c) : (exactly word).Misses text := by
  obtain ⟨more, same⟩ := List.head?_eq_some_iff.mp starts
  apply exactly_misses
  rw [same]
  exact behind?_head different

theorem keyword_misses_head {word : String} {c : Char} (starts : word.toList.head? = some c)
    (different : text.head? ≠ some c) :
    (keyword word).Misses text := bind_misses (exactly_misses_head starts different)

theorem is_word_char_of_starts_word {c : Char} (starts : startsWord c = true) :
    isWordChar c = true := by
  simp only [startsWord, Bool.or_eq_true] at starts
  rcases starts with letter | low <;> simp [isWordChar, *]

theorem is_path_char_of_word_char {c : Char} (word : isWordChar c = true) : isPathChar c = true := by
  rw [isPathChar, word, Bool.true_or]

theorem keyword_done {word : String} (ends : Ends isWordChar rest) :
    keyword word (word.toList ++ rest) = .done () rest := by
  rw [keyword, bind_done (exactly_append word rest)]
  cases rest with
  | nil => rfl
  | cons c later => simp [notBefore, ends c rfl]

theorem keyword_misses {word : String} (all : word.toList.all isWordChar = true)
    (different : text.takeWhile isWordChar ≠ word.toList) : (keyword word).Misses text := by
  cases found : behind? word.toList text with
  | none => exact bind_misses (exactly_misses found)
  | some rest =>
      have whole := behind?_eq_some found
      subst whole
      cases rest with
      | nil =>
          rw [List.append_nil, List.takeWhile_eq_self_iff.mpr (List.all_eq_true.mp all)] at different
          exact absurd rfl different
      | cons c later =>
          cases continues : isWordChar c with
          | true =>
              refine bind_then_misses (exactly_append word _) ⟨c :: later, .none, ?_⟩
              rw [notBefore, if_pos continues]
          | false =>
              rw [List.takeWhile_append_of_pos (List.all_eq_true.mp all),
                List.takeWhile_cons_of_neg (by simp [continues]), List.append_nil] at different
              exact absurd rfl different

theorem word_read {accepts : Char → Bool} (wider : ∀ c, startsWord c = true → accepts c = true)
    {c : Char} {more : List Char} (starts : startsWord c = true)
    (all : (c :: more).all accepts = true) (ends : Ends accepts rest) :
    ∃ start later, start ++ later = c :: more ∧
      someRun startsWord (c :: more ++ rest) = .done start (later ++ rest) ∧
      run accepts (later ++ rest) = .done later rest := by
  have split : (c :: more).takeWhile startsWord ++ (c :: more).dropWhile startsWord = c :: more :=
    List.takeWhile_append_dropWhile
  have allBoth := all
  rw [← split, List.all_append, Bool.and_eq_true] at allBoth
  refine ⟨_, _, split, ?_, run_append allBoth.2 ends⟩
  conv => lhs; rw [← split]
  rw [List.append_assoc]
  refine some_run_append ?_ (List.all_takeWhile) ?_
  · rw [List.takeWhile_cons_of_pos starts]
    exact List.cons_ne_nil _ _
  · intro d first
    cases behind : (c :: more).dropWhile startsWord with
    | nil =>
        rw [behind, List.nil_append] at first
        exact (ends.mono wider) d first
    | cons e later =>
        rw [behind, List.cons_append, List.head?_cons, Option.mem_some_iff] at first
        subst first
        have stopped := List.head?_dropWhile_not startsWord (c :: more)
        rw [behind] at stopped
        exact stopped

structure IsName (name : List Char) : Prop where
  starts : ∃ c more, name = c :: more ∧ startsWord c = true
  chars : name.all isWordChar = true

structure IsDotted (path : List Char) : Prop where
  starts : ∃ c more, path = c :: more ∧ startsWord c = true
  chars : path.all isPathChar = true

structure IsPath (path : List Char) : Prop extends IsDotted path where
  free : isReserved (path.takeWhile isWordChar) = false

theorem name_read {word : String} (isName : IsName word.toList) (ends : Ends isWordChar rest) :
    name (word.toList ++ rest) = .done word rest := by
  obtain ⟨c, more, same, starts⟩ := isName.starts
  have all := isName.chars
  rw [same] at all
  obtain ⟨start, later, whole, first, second⟩ :=
    word_read (fun _ => is_word_char_of_starts_word) starts all ends
  rw [name, same, bind_done first, bind_done second, whole, ← same, String.ofList_toList]
  rfl

theorem lower_letter_starts_word {c : Char} (lower : 'a' ≤ lowerLetter c ∧ lowerLetter c ≤ 'z') :
    isLetter c = true := by
  unfold lowerLetter at lower
  cases upper : ('A' ≤ c && c ≤ 'Z' : Bool) with
  | true => simp [isLetter, upper]
  | false =>
      rw [upper] at lower
      simpa [isLetter] using Or.inl lower

theorem reserved_lower : ∀ known ∈ reserved, ∀ c ∈ known.toList, 'a' ≤ c ∧ c ≤ 'z' := by
  decide

theorem is_reserved_word {word : List Char} (isReserved : isReserved word = true) :
    word.all isWordChar = true := by
  obtain ⟨known, member, same⟩ := List.any_eq_true.mp isReserved
  rw [beq_iff_eq] at same
  have lower : ∀ c ∈ known.toList, 'a' ≤ c ∧ c ≤ 'z' := reserved_lower known member
  rw [List.all_eq_true]
  intro c inWord
  have mapped : lowerLetter c ∈ known.toList := same ▸ List.mem_map_of_mem inWord
  simp [isWordChar, lower_letter_starts_word (lower _ mapped)]

theorem IsPath.not_reserved {path : List Char} (isPath : IsPath path) :
    isReserved path = false := by
  cases whole : isReserved path with
  | false => rfl
  | true =>
      have free := isPath.free
      rw [List.takeWhile_eq_self_iff.mpr (List.all_eq_true.mp (is_reserved_word whole)), whole] at free
      cases free

theorem path_read {word : String} (isPath : IsPath word.toList) (ends : Ends isPathChar rest) :
    path (word.toList ++ rest) = .done word rest := by
  obtain ⟨c, more, same, starts⟩ := isPath.starts
  have all := isPath.chars
  rw [same] at all
  obtain ⟨start, later, whole, first, second⟩ :=
    word_read (fun _ starts => is_path_char_of_word_char (is_word_char_of_starts_word starts)) starts all
      ends
  rw [path, same, bind_done first, bind_done second, whole, ← same,
    if_neg (by simp [isPath.not_reserved]), String.ofList_toList]
  rfl

theorem string_tail_plain {c : Char} (noQuote : c ≠ '"') (noBackslash : c ≠ '\\') {text : List Char}
    {value : List Char} (tail : stringTail text = .done value rest) :
    stringTail (c :: text) = .done (c :: value) rest := by
  rw [stringTail, tail]
  · exact noQuote
  · intro same _
    exact noBackslash same
  · intro d others same _
    exact noBackslash same

theorem string_tail_verbatim (text rest : List Char) (verbatim : isVerbatim text = true) :
    stringTail (text ++ '"' :: rest) = .done text rest := by
  induction text using isVerbatim.induct with
  | case1 => rfl
  | case2 => cases verbatim
  | case3 c later ih =>
      rw [isVerbatim, Bool.and_eq_true, decide_eq_true_iff] at verbatim
      obtain ⟨plain, tail⟩ := verbatim
      simp only [List.mem_cons, List.not_mem_nil, or_false, not_or] at plain
      simp [stringTail, ih tail, unescape, plain]
  | case4 c later notLast notEscape ih =>
      rw [isVerbatim, Bool.and_eq_true, bne_iff_ne] at verbatim
      · obtain ⟨noQuote, tail⟩ := verbatim
        have noBackslash : c ≠ '\\' := by
          intro same
          cases later with
          | nil => exact notLast same rfl
          | cons d others => exact notEscape d others same rfl
        exact string_tail_plain noQuote noBackslash (ih tail)
      · exact notLast
      · exact notEscape

theorem string_literal_read {value : String} (verbatim : isVerbatim value.toList = true) :
    stringLiteral ('"' :: (value.toList ++ '"' :: rest)) = .done value rest := by
  have quote : exactly "\"" ('"' :: (value.toList ++ '"' :: rest)) =
      .done () (value.toList ++ '"' :: rest) := exactly_append "\"" _
  rw [stringLiteral, bind_done quote, bind_done (string_tail_verbatim _ _ verbatim),
    String.ofList_toList]
  rfl

theorem string_literal_misses (different : text.head? ≠ some '"') : stringLiteral.Misses text :=
  bind_misses (exactly_misses_head rfl different)

theorem starts_word_no_digit {c : Char} (starts : startsWord c = true) :
    Decimal.isDigit c = false := by
  cases digit : Decimal.isDigit c with
  | false => rfl
  | true =>
      simp only [Decimal.isDigit, startsWord, isLetter, Bool.and_eq_true, Bool.or_eq_true,
        decide_eq_true_eq, beq_iff_eq, Char.le_def, UInt32.le_iff_toNat_le] at digit starts
      rcases starts with (lower | upper) | same
      · exact absurd (Nat.le_trans lower.1 digit.2) (by decide)
      · exact absurd (Nat.le_trans upper.1 digit.2) (by decide)
      · subst same
        exact absurd digit.2 (by decide)

theorem number_misses (noDigit : Ends Decimal.isDigit text) : number.Misses text := by
  have noText : numberText.Misses text := bind_misses (some_run_misses noDigit)
  obtain ⟨left, complaint, missed⟩ := noText
  exact ⟨left, complaint, by rw [number, missed]⟩

theorem is_path_char_of_digit {c : Char} (digit : Decimal.isDigit c = true) :
    isPathChar c = true := by
  apply is_path_char_of_word_char
  rw [isWordChar, digit, Bool.or_true, Bool.true_or]

theorem fraction_read {fraction : List Char} (digits : fraction.all Decimal.isDigit = true)
    (ends : Ends isPathChar rest) :
    optional (do exactly "."; someRun Decimal.isDigit)
        ((if fraction.isEmpty then [] else '.' :: fraction) ++ rest) =
      .done (if fraction.isEmpty then none else some fraction) rest := by
  have endsDigits : Ends Decimal.isDigit rest := ends.mono fun _ => is_path_char_of_digit
  cases fraction with
  | nil =>
      have noPoint : rest.head? ≠ some '.' := by
        intro first
        have refused := ends '.' first
        cases refused
      exact optional_misses (bind_misses (exactly_misses_head rfl noPoint))
  | cons c more =>
      apply optional_done
      have point : exactly "." ('.' :: (c :: more) ++ rest) = .done () (c :: more ++ rest) :=
        exactly_append "." _
      rw [List.isEmpty_cons, if_neg Bool.false_ne_true, bind_done point]
      exact some_run_append (List.cons_ne_nil _ _) digits endsDigits

section

variable {d : Decimal} {whole fraction : List Char} (numeral : Decimal.Numeral whole fraction)

include numeral

theorem number_text_read (ends : Ends isPathChar rest) :
    numberText (Decimal.partsText whole fraction ++ rest) =
      .done (Decimal.partsText whole fraction) rest := by
  have stops : Ends Decimal.isDigit ((if fraction.isEmpty then [] else '.' :: fraction) ++ rest) := by
    cases fraction with
    | nil => exact ends.mono fun _ => is_path_char_of_digit
    | cons c more =>
        intro d first
        cases first
        decide
  rw [numberText, Decimal.partsText, List.append_assoc,
    bind_done (some_run_append numeral.nonempty numeral.wholeDigits stops),
    bind_done (fraction_read numeral.fractionDigits ends)]
  cases fraction with
  | nil =>
      change Reading.done whole rest = _
      rw [List.isEmpty_nil, if_pos rfl, List.append_nil]
  | cons c more => rfl

theorem Opens.digits : Opens (Decimal.partsText whole fraction) := by
  obtain ⟨c, more, same, digit⟩ := numeral.head
  exact ⟨c, more, same, by simp [opensOperand, isWordChar, digit]⟩

variable (plain : Decimal.plain? (Decimal.partsText whole fraction) = .ok d)

include plain

theorem number_read (ends : Ends isPathChar rest) :
    number (Decimal.partsText whole fraction ++ rest) = .done d rest := by
  rw [number, number_text_read numeral ends]
  dsimp only
  rw [plain]

theorem literal_number (ends : Ends isPathChar rest) :
    literal (Decimal.partsText whole fraction ++ rest) = .done (.number d) rest := by
  obtain ⟨c, more, same, digit⟩ := numeral.head
  have apart {d : Char} (noDigit : Decimal.isDigit d = false) :
      (Decimal.partsText whole fraction ++ rest).head? ≠ some d := by
    rw [same]
    intro first
    cases first
    rw [digit] at noDigit
    cases noDigit
  refine (or_else_misses (bind_misses (string_literal_misses (apart (by decide))))).trans ?_
  refine (or_else_misses (bind_misses (keyword_misses_head rfl (apart (by decide))))).trans ?_
  refine (or_else_misses (bind_misses (keyword_misses_head rfl (apart (by decide))))).trans ?_
  refine (or_else_misses (bind_misses (keyword_misses_head rfl (apart (by decide))))).trans ?_
  rw [bind_done (number_read numeral plain ends)]
  rfl

theorem signed_literal_minus (ends : Ends isPathChar rest) :
    signedLiteral ('-' :: (Decimal.partsText whole fraction ++ rest)) =
      .done (.number d.neg) rest := by
  have minus : exactly "-" ('-' :: (Decimal.partsText whole fraction ++ rest)) =
      .done () (Decimal.partsText whole fraction ++ rest) := exactly_append "-" _
  have start : blank ('-' :: (Decimal.partsText whole fraction ++ rest)) =
      .done () ('-' :: (Decimal.partsText whole fraction ++ rest)) := by
    rw [blank, skip_blank_mark (by decide)]
  have inside : blank (Decimal.partsText whole fraction ++ rest) =
      .done () (Decimal.partsText whole fraction ++ rest) := by
    rw [blank, ((Opens.digits numeral).append rest).skip_blank]
  rw [signedLiteral, bind_done start, bind_done (optional_done minus)]
  dsimp only
  rw [bind_done inside, bind_done (commit_done (number_read numeral plain ends))]
  rfl

end

theorem literal_text {value : String} (verbatim : isVerbatim value.toList = true) :
    literal ('"' :: (value.toList ++ '"' :: rest)) = .done (.text value) rest := by
  refine or_else_done ?_
  rw [bind_done (string_literal_read verbatim)]
  rfl

theorem literal_null (ends : Ends isWordChar rest) :
    literal ('n' :: 'u' :: 'l' :: 'l' :: rest) = .done .null rest := by
  have word : keyword "null" ('n' :: 'u' :: 'l' :: 'l' :: rest) = .done () rest := keyword_done ends
  refine (or_else_misses (bind_misses (string_literal_misses (by simp)))).trans ?_
  refine (or_else_misses (bind_misses (keyword_misses_head (c := 't') rfl (by simp)))).trans ?_
  refine (or_else_misses (bind_misses (keyword_misses_head (c := 'f') rfl (by simp)))).trans ?_
  exact or_else_done (bind_done word)

theorem literal_true (ends : Ends isWordChar rest) :
    literal ('t' :: 'r' :: 'u' :: 'e' :: rest) = .done (.bool true) rest := by
  have word : keyword "true" ('t' :: 'r' :: 'u' :: 'e' :: rest) = .done () rest := keyword_done ends
  refine (or_else_misses (bind_misses (string_literal_misses (by simp)))).trans ?_
  exact or_else_done (bind_done word)

theorem literal_false (ends : Ends isWordChar rest) :
    literal ('f' :: 'a' :: 'l' :: 's' :: 'e' :: rest) = .done (.bool false) rest := by
  have word : keyword "false" ('f' :: 'a' :: 'l' :: 's' :: 'e' :: rest) = .done () rest :=
    keyword_done ends
  refine (or_else_misses (bind_misses (string_literal_misses (by simp)))).trans ?_
  refine (or_else_misses (bind_misses (keyword_misses_head (c := 't') rfl (by simp)))).trans ?_
  exact or_else_done (bind_done word)

theorem render_text (value : String) :
    (Scalar.text value).render.toList = '"' :: (value.toList ++ ['"']) := by
  simp [Scalar.render]

theorem render_positive {d : Decimal} (positive : d.negative = false) :
    d.render.toList = Decimal.partsText d.wholeDigits d.fractionDigits ∧ d.abs = d := by
  constructor
  · rw [d.render_chars, positive]
    rfl
  · cases d
    cases positive
    rfl

theorem Opens.literal {value : Scalar} (positive : value.isNegative = false) :
    Opens value.render.toList := by
  cases value with
  | null => exact ⟨'n', _, rfl, by decide⟩
  | bool choice =>
      cases choice with
      | true => exact ⟨'t', _, rfl, by decide⟩
      | false => exact ⟨'f', _, rfl, by decide⟩
  | number d =>
      rw [Scalar.render, (render_positive positive).1]
      exact Opens.digits d.parts.toNumeral
  | text value =>
      rw [render_text]
      exact ⟨'"', _, rfl, by decide⟩

theorem literal_read {value : Scalar} (verbatim : value.IsVerbatim)
    (positive : value.isNegative = false) (ends : Ends isPathChar rest) :
    literal (value.render.toList ++ rest) = .done value rest := by
  have endsWord : Ends isWordChar rest := ends.mono fun _ => is_path_char_of_word_char
  cases value with
  | null => exact literal_null endsWord
  | bool choice =>
      cases choice with
      | true => exact literal_true endsWord
      | false => exact literal_false endsWord
  | number d =>
      obtain ⟨chars, abs⟩ := render_positive positive
      have read := literal_number d.parts.toNumeral (Decimal.plain?_parts d.parts) ends
      rw [abs] at read
      rw [Scalar.render, chars]
      exact read
  | text value =>
      have chars : (Scalar.text value).render.toList ++ rest =
          '"' :: (value.toList ++ '"' :: rest) := by
        simp [render_text]
      rw [chars]
      exact literal_text verbatim

theorem render_negative {d : Decimal} (negative : d.negative = true) :
    d.render.toList = '-' :: Decimal.partsText d.wholeDigits d.fractionDigits ∧ d.abs.neg = d := by
  constructor
  · rw [d.render_chars, negative]
    rfl
  · cases d
    cases negative
    rfl

theorem signed_literal_literal {value : Scalar} (opens : Opens text)
    (read : literal text = .done value rest) : signedLiteral text = .done value rest := by
  have start : blank text = .done () text := by rw [blank, opens.skip_blank]
  have noMinus : (exactly "-").Misses text := exactly_misses_head rfl (opens.head_ne (by decide))
  rw [signedLiteral, bind_done start, bind_done (optional_misses noMinus)]
  exact expecting_done read

theorem signed_literal_read {value : Scalar} (verbatim : value.IsVerbatim)
    (ends : Ends isPathChar rest) :
    signedLiteral (value.render.toList ++ rest) = .done value rest := by
  cases sign : value.isNegative with
  | true =>
      cases value with
      | number d =>
          obtain ⟨chars, neg⟩ := render_negative sign
          have read := signed_literal_minus d.parts.toNumeral (Decimal.plain?_parts d.parts) ends
          rw [Scalar.render, chars, ← neg]
          exact read
      | _ => cases sign
  | false =>
      exact signed_literal_literal ((Opens.literal sign).append rest)
        (literal_read verbatim sign ends)

end Script

end Tariff
