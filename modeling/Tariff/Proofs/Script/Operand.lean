import Tariff.Proofs.Script.Level

set_option autoImplicit false

namespace Tariff.Script

open Reader

variable {nested : Reader Formula} {text rest : List Char} {value : Formula}

theorem defaulted_primary (read : primary nested text = .done value rest)
    (stops : Stops operandMarks [] rest) : defaulted nested text = .done value rest := by
  have noDefault : optional (do blank; exactly "??") rest = .done none rest :=
    optional_misses (blank_then_misses
      (exactly_misses_head (c := '?') rfl (stops.noMark '?' (by decide))))
  rw [defaulted, bind_done read, bind_done noDefault]
  rfl

theorem ReadsOperand.of_primary (opens : Opens text)
    (noNot : (eitherCase "not" "NOT").Misses (text ++ rest))
    (read : primary nested (text ++ rest) = .done value rest)
    (stops : Stops operandMarks [] rest) : ReadsOperand nested text value rest where
  start := (opens.append rest).skip_blank
  noNot := noNot
  noList := (opens.append rest).head_ne (by decide)
  signed signs all := signed_read signs all (opens.append rest) (defaulted_primary read stops)

def calls : List String := ["min", "max", "sum", "bool"]

theorem calls_first : ∀ word ∈ calls, ∃ c ∈ ['m', 's', 'b'], word.toList.head? = some c := by
  decide

theorem call_misses (misses : ∀ word ∈ calls, (callStart word).Misses text) :
    (call nested).Misses text := by
  refine or_else_both_miss ?_ (or_else_both_miss ?_ (or_else_both_miss ?_ ?_))
  · exact bind_misses (misses "min" (by decide))
  · exact bind_misses (misses "max" (by decide))
  · exact bind_misses (misses "sum" (by decide))
  · exact bind_misses (misses "bool" (by decide))

theorem primary_plain (opens : Opens text) (noParenthesis : text.head? ≠ some '(')
    (noIf : (keyword "if").Misses text)
    (noCall : ∀ word ∈ calls, (callStart word).Misses text)
    (read : ((do return .literal (← literal)) <|> (do return .field (← path) none) :
      Reader Formula) text = .done value rest) : primary nested text = .done value rest := by
  have start : blank text = .done () text := by rw [blank, opens.skip_blank]
  rw [primary, bind_done start]
  apply expecting_done
  refine (or_else_misses (bind_misses (exactly_misses_head (c := '(') rfl noParenthesis))).trans ?_
  refine (or_else_misses (bind_misses noIf)).trans ?_
  exact (or_else_misses (call_misses noCall)).trans read

theorem call_start_misses_head {word : String} {c : Char} (starts : word.toList.head? = some c)
    (different : text.head? ≠ some c) : (callStart word).Misses text :=
  bind_misses (keyword_misses_head starts different)

-- What a literal without a sign does not begin with. Only null begins with an `n`.
theorem literal_head {value : Scalar} (positive : value.isNegative = false) (rest : List Char)
    {c : Char} (member : c ∈ ['(', 'i', 'm', 's', 'b', 'N'] ∨ (c = 'n' ∧ value ≠ .null)) :
    (value.render.toList ++ rest).head? ≠ some c := by
  have noDigit : ∀ c ∈ ['(', 'i', 'm', 's', 'b', 'N', 'n'], Decimal.isDigit c = false := by decide
  have among : c ∈ ['(', 'i', 'm', 's', 'b', 'N', 'n'] := by
    rcases member with early | ⟨late, _⟩
    · exact List.mem_append_left ['n'] early
    · rw [late]
      decide
  cases value with
  | null =>
      have notNull : c ∈ ['(', 'i', 'm', 's', 'b', 'N'] := member.resolve_right fun both => both.2 rfl
      intro head
      cases head
      exact absurd notNull (by decide)
  | bool choice =>
      intro head
      cases choice <;> (cases head; exact absurd among (by decide))
  | number d =>
      obtain ⟨first, more, same, digit⟩ := d.parts.toNumeral.head
      rw [Scalar.render, (render_positive positive).1, same]
      intro head
      cases head
      rw [noDigit _ among] at digit
      cases digit
  | text value =>
      rw [render_text]
      intro head
      cases head
      exact absurd among (by decide)

theorem literal_no_not {value : Scalar} (positive : value.isNegative = false) (rest : List Char) :
    (eitherCase "not" "NOT").Misses (value.render.toList ++ rest) := by
  refine or_else_both_miss ?_ (keyword_misses_head rfl (literal_head positive rest (.inl (by decide))))
  by_cases null : value = .null
  · subst null
    exact bind_misses (exactly_misses rfl)
  · exact keyword_misses_head rfl (literal_head positive rest (.inr ⟨rfl, null⟩))

theorem ReadsOperand.literal_positive {value : Scalar} (verbatim : value.IsVerbatim)
    (positive : value.isNegative = false) (stops : Stops operandMarks [] rest) :
    ReadsOperand nested value.render.toList (.literal value) rest := by
  have apart {c : Char} (member : c ∈ ['(', 'i', 'm', 's', 'b', 'N']) :=
    literal_head positive rest (c := c) (.inl member)
  refine .of_primary (Opens.literal positive) (literal_no_not positive rest) ?_ stops
  refine primary_plain ((Opens.literal positive).append rest) (apart (by decide))
    (keyword_misses_head rfl (apart (by decide))) ?_ ?_
  · intro word member
    obtain ⟨c, among, starts⟩ := calls_first word member
    have early : ∀ c ∈ ['m', 's', 'b'], c ∈ ['(', 'i', 'm', 's', 'b', 'N'] := by decide
    exact call_start_misses_head starts (apart (early c among))
  · refine or_else_done ?_
    rw [bind_done (literal_read verbatim positive stops.ends)]
    rfl

theorem ReadsOperand.literal {value : Scalar} (verbatim : value.IsVerbatim)
    (stops : Stops operandMarks [] rest) :
    ReadsOperand nested value.render.toList (.literal value) rest := by
  cases sign : value.isNegative with
  | false => exact .literal_positive verbatim sign stops
  | true =>
      cases value with
      | number d =>
          have verbatim : (Scalar.number d.abs).IsVerbatim := trivial
          have reads : ReadsOperand nested (Scalar.number d.abs).render.toList
              (.literal (.number d.abs)) rest := .literal_positive verbatim rfl stops
          obtain ⟨chars, neg⟩ := render_negative sign
          have text : d.render.toList = '-' :: (Scalar.number d.abs).render.toList := by
            rw [chars, Scalar.render, (render_positive (d := d.abs) rfl).1]
            rfl
          rw [Scalar.render, text]
          refine ⟨skip_blank_mark (by decide) _, ?_, by simp, fun signs all => ?_⟩
          · exact or_else_both_miss (keyword_misses_head (c := 'n') rfl (by simp))
              (keyword_misses_head (c := 'N') rfl (by simp))
          · have read := reads.signed (signs ++ ['-']) (by rw [List.all_append, all]; rfl)
            rw [List.append_assoc, List.foldr_append] at read
            change _ = Reading.done (signs.foldr applySign (.literal (.number d.abs.neg))) rest at read
            rw [neg] at read
            exact read
      | _ => cases sign

section

variable {name : String} (isPath : IsPath name.toList) (ends : Ends isPathChar rest)

include ends in
theorem path_first_word {path : List Char} (all : path.all isPathChar = true) :
    (path ++ rest).takeWhile isWordChar = path.takeWhile isWordChar := by
  induction path with
  | nil =>
      rw [List.nil_append, List.takeWhile_nil]
      cases rest with
      | nil => rfl
      | cons c more =>
          exact List.takeWhile_cons_of_neg (by simp [ends.mono (fun _ => is_path_char_of_word_char) c rfl])
  | cons c more ih =>
      rw [List.all_cons, Bool.and_eq_true] at all
      rw [List.cons_append, List.takeWhile_cons, List.takeWhile_cons, ih all.2]

include isPath ends

theorem keyword_misses_path {word : String} (isReserved : isReserved word.toList = true) :
    (keyword word).Misses (name.toList ++ rest) := by
  apply keyword_misses (is_reserved_word isReserved)
  rw [path_first_word ends isPath.chars]
  intro same
  have free := isPath.free
  rw [same, isReserved] at free
  cases free

omit ends in
theorem Opens.path : Opens name.toList := by
  obtain ⟨c, more, same, starts⟩ := isPath.starts
  exact ⟨c, more, same, by simp [opensOperand, is_word_char_of_starts_word starts]⟩

theorem literal_misses_path : literal.Misses (name.toList ++ rest) := by
  obtain ⟨c, more, same, starts⟩ := isPath.starts
  have noQuote : (name.toList ++ rest).head? ≠ some '"' := by
    rw [same]
    intro first
    cases first
    cases starts
  have noDigit : Ends Decimal.isDigit (name.toList ++ rest) := by
    rw [same]
    intro d first
    cases first
    exact starts_word_no_digit starts
  have noKeyword {word : String} (isReserved : isReserved word.toList = true) :=
    keyword_misses_path isPath ends isReserved
  refine or_else_both_miss (bind_misses (string_literal_misses noQuote)) ?_
  refine or_else_both_miss (bind_misses (noKeyword (by decide))) ?_
  refine or_else_both_miss (bind_misses (noKeyword (by decide))) ?_
  refine or_else_both_miss (bind_misses (noKeyword (by decide))) ?_
  exact bind_misses (number_misses noDigit)

end

-- A path may be the name of a call, as long as no parenthesis is opened behind it.
theorem call_start_misses_path {name : String} (isPath : IsPath name.toList)
    (stops : Stops ['('] [] rest) {word : String} (all : word.toList.all isWordChar = true) :
    (callStart word).Misses (name.toList ++ rest) := by
  by_cases same : name.toList.takeWhile isWordChar = word.toList
  · have whole : name.toList = word.toList ++ name.toList.dropWhile isWordChar := by
      rw [← same, List.takeWhile_append_dropWhile]
    have chars := isPath.chars
    rw [whole, List.all_append, Bool.and_eq_true] at chars
    rw [whole, List.append_assoc]
    cases behind : name.toList.dropWhile isWordChar with
    | nil =>
        rw [List.nil_append]
        have ends : Ends isWordChar rest := stops.ends.mono fun _ => is_path_char_of_word_char
        refine bind_then_misses (keyword_done ends) (blank_then_misses ?_)
        exact exactly_misses_head (c := '(') rfl (stops.noMark '(' (by decide))
    | cons c more =>
        have stopped := List.head?_dropWhile_not isWordChar name.toList
        rw [behind] at stopped chars
        have noWord : isWordChar c = false := stopped
        rw [List.all_cons, Bool.and_eq_true, isPathChar, noWord, Bool.false_or, beq_iff_eq] at chars
        have dot := chars.2.1
        subst dot
        have ends : Ends isWordChar ('.' :: more ++ rest) := by
          intro d first
          cases first
          decide
        refine bind_then_misses (keyword_done ends) (blank_then_misses ?_)
        rw [List.cons_append, skip_blank_mark (by decide)]
        exact exactly_misses_head (c := '(') rfl (by simp)
  · refine bind_misses (keyword_misses all ?_)
    rwa [path_first_word stops.ends isPath.chars]

theorem primary_path {name : String} (isPath : IsPath name.toList) (stops : Stops ['('] [] rest) :
    primary nested (name.toList ++ rest) = .done (.field name none) rest := by
  have opens := Opens.path isPath
  refine primary_plain (opens.append rest) ?_ (keyword_misses_path isPath stops.ends (by decide)) ?_ ?_
  · obtain ⟨c, more, same, starts⟩ := isPath.starts
    rw [same]
    intro first
    cases first
    cases starts
  · intro word member
    have all : ∀ word ∈ calls, word.toList.all isWordChar = true := by decide
    exact call_start_misses_path isPath stops (all word member)
  · refine (or_else_misses (bind_misses (literal_misses_path isPath stops.ends))).trans ?_
    rw [bind_done (path_read isPath stops.ends)]
    rfl

theorem path_no_not {name : String} (isPath : IsPath name.toList) (ends : Ends isPathChar rest) :
    (eitherCase "not" "NOT").Misses (name.toList ++ rest) :=
  or_else_both_miss (keyword_misses_path isPath ends (by decide))
    (keyword_misses_path isPath ends (by decide))

theorem ReadsOperand.path {name : String} (isPath : IsPath name.toList)
    (stops : Stops operandMarks [] rest) :
    ReadsOperand nested name.toList (.field name none) rest :=
  .of_primary (Opens.path isPath) (path_no_not isPath stops.ends)
    (primary_path isPath (stops.mono (by decide) (List.Subset.refl _))) stops

theorem closing_read (rest : List Char) : closing (')' :: rest) = .done () rest := by
  have start : blank (')' :: rest) = .done () (')' :: rest) := by
    rw [blank, skip_blank_mark (by decide)]
  have mark : exactly ")" (')' :: rest) = .done () rest := exactly_append ")" rest
  rw [closing, bind_done start]
  exact commit_done mark

theorem parenthesis_read {inner : List Char}
    (read : nested (inner ++ ')' :: rest) = .done value (')' :: rest)) :
    parenthesis nested (Formula.parenthesized inner ++ rest) = .done value rest := by
  have text : Formula.parenthesized inner ++ rest = '(' :: (inner ++ ')' :: rest) := by
    simp [Formula.parenthesized]
  have mark : exactly "(" ('(' :: (inner ++ ')' :: rest)) = .done () (inner ++ ')' :: rest) :=
    exactly_append "(" _
  rw [text, parenthesis, bind_done mark, bind_done read, bind_done (closing_read rest)]
  rfl

theorem ReadsOperand.parenthesized {inner : List Char}
    (read : nested (inner ++ ')' :: rest) = .done value (')' :: rest))
    (stops : Stops operandMarks [] rest) :
    ReadsOperand nested (Formula.parenthesized inner) value rest := by
  have opens : Opens (Formula.parenthesized inner) := ⟨'(', _, rfl, by decide⟩
  refine .of_primary opens ?_ ?_ stops
  · exact or_else_both_miss
      (keyword_misses_head (c := 'n') rfl (by simp [Formula.parenthesized]))
      (keyword_misses_head (c := 'N') rfl (by simp [Formula.parenthesized]))
  · have start : blank (Formula.parenthesized inner ++ rest) =
        .done () (Formula.parenthesized inner ++ rest) := by
      rw [blank, (opens.append rest).skip_blank]
    rw [primary, bind_done start]
    exact expecting_done (or_else_done (parenthesis_read read))

end Tariff.Script
