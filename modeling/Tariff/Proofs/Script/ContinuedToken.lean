import Tariff.Proofs.Script.Continued

set_option autoImplicit false

namespace Tariff.Script

open Reader

variable {further : List Char}

section

variable (sequel : Sequel further) {limit : Nat}

include sequel

theorem carries_blank : Carries further limit blank blank := by
  refine ⟨steady_blank, fun text longer value rest _ follows done _ => ?_⟩
  cases done
  cases follows with
  | atEnd =>
      right
      refine ⟨skipBlank further, ?_, .atEnd⟩
      rw [blank, skip_blank_again]
  | behind =>
      rcases sequel.skip_blank_append text with after | ⟨stuck, _⟩
      · exact .inr ⟨_, rfl, after⟩
      · exact .inl (stuck_skip_blank.mpr stuck)

omit sequel in
theorem exactly_eq_done {word : String} {text rest : List Char}
    (done : exactly word text = .done () rest) : text = word.toList ++ rest := by
  rw [exactly] at done
  split at done
  · rename_i left found
    cases done
    exact behind?_eq_some found
  · cases done

omit sequel in
theorem exact_exactly {word : String} {c : Char} (starts : word.toList.head? = some c)
    (mark : isMark c = true) : Exact further isMark (exactly word) := by
  refine ⟨.exactly starts mark, fun _ => id, fun text value rest done => ?_⟩
  rw [exactly_eq_done done, List.append_assoc]
  exact exactly_append word _

omit sequel in
theorem Ends.append {accepts : Char → Bool} {rest : List Char} (ends : Ends accepts rest)
    (endsFurther : Ends accepts further) : Ends accepts (rest ++ further) := by
  cases rest with
  | nil => exact endsFurther
  | cons c more => exact ends

omit sequel in
theorem keyword_eq_done {word : String} {text rest : List Char}
    (done : keyword word text = .done () rest) :
    text = word.toList ++ rest ∧ Ends isWordChar rest := by
  obtain ⟨_, middle, first, second⟩ := bind_eq_done done
  have whole := exactly_eq_done first
  unfold notBefore at second
  split at second
  · cases second
    exact ⟨whole, fun c none => by cases none⟩
  · rename_i c more
    split at second
    · cases second
    · rename_i refused
      cases second
      refine ⟨whole, fun d first => ?_⟩
      cases first
      exact Bool.eq_false_iff.mpr refused

theorem exact_keyword {word : String} {c : Char} (starts : word.toList.head? = some c)
    (letter : isWordChar c = true) : Exact further isWordChar (keyword word) := by
  refine ⟨.keyword starts letter, fun _ => is_mark_of_word_char, fun text value rest done => ?_⟩
  obtain ⟨whole, ends⟩ := keyword_eq_done done
  rw [whole, List.append_assoc]
  exact keyword_done (ends.append (sequel.ends rfl))

omit sequel in
theorem exact_one {first : Char → Bool} (marks : ∀ c, first c = true → isMark c = true) :
    Exact further first (one first) := by
  refine ⟨.one, marks, fun text value rest done => ?_⟩
  obtain ⟨c, more, same, accepted, _⟩ := Bites.one text value rest done
  rw [same, one_done accepted] at done
  cases done
  rw [same]
  exact one_done accepted

theorem some_run_longer {accepts : Char → Bool} (refused : accepts '\n' = false)
    {text found rest : List Char} (done : someRun accepts text = .done found rest) :
    someRun accepts (text ++ further) = .done found (rest ++ further) := by
  rw [someRun] at done ⊢
  rw [sequel.take_while_append refused, sequel.drop_while_append refused]
  split at done
  · cases done
  · rename_i some
    cases done
    rfl

theorem run_longer {accepts : Char → Bool} (refused : accepts '\n' = false)
    {text found rest : List Char} (done : run accepts text = .done found rest) :
    run accepts (text ++ further) = .done found (rest ++ further) := by
  rw [run] at done ⊢
  rw [sequel.take_while_append refused, sequel.drop_while_append refused]
  cases done
  rfl

theorem exact_name : Exact further startsWord name := by
  refine ⟨bites_name, fun _ => is_mark_of_starts_word, fun text value rest done => ?_⟩
  obtain ⟨start, middle, first, others⟩ := bind_eq_done done
  obtain ⟨later, left, second, last⟩ := bind_eq_done others
  cases last
  rw [name, bind_done (some_run_longer sequel rfl first), bind_done (run_longer sequel rfl second)]
  rfl

theorem exact_path : Exact further startsWord path := by
  refine ⟨bites_path, fun _ => is_mark_of_starts_word, fun text value rest done => ?_⟩
  obtain ⟨start, middle, first, others⟩ := bind_eq_done done
  obtain ⟨later, left, second, last⟩ := bind_eq_done others
  rw [path, bind_done (some_run_longer sequel rfl first), bind_done (run_longer sequel rfl second)]
  split at last
  · cases last
  · rename_i free
    cases last
    rw [if_neg free]
    rfl

omit sequel in
theorem exact_string_literal : Exact further (· == '"') stringLiteral := by
  refine ⟨bites_string_literal, ?_, fun text value rest done => ?_⟩
  · intro c quote
    rw [beq_iff_eq.mp quote]
    decide
  · obtain ⟨_, middle, first, others⟩ := bind_eq_done done
    obtain ⟨tail, left, second, last⟩ := bind_eq_done others
    obtain ⟨taken, whole, again⟩ := string_tail_eq_done second
    cases last
    rw [exactly_eq_done first, whole, List.append_assoc, List.append_assoc, List.cons_append,
      stringLiteral, bind_done (exactly_append _ _), bind_done (again _)]
    rfl

theorem some_run_misses_longer {accepts : Char → Bool} (refused : accepts '\n' = false)
    {text : List Char} (missed : (someRun accepts).Misses text) :
    (someRun accepts).Misses (text ++ further) := by
  obtain ⟨left, complaint, missed⟩ := missed
  rw [someRun] at missed
  split at missed
  · rename_i none
    refine ⟨text ++ further, .none, ?_⟩
    rw [someRun, sequel.take_while_append refused, none]
  · cases missed

theorem fraction_misses_longer {text : List Char}
    (missed : (do exactly "."; someRun Decimal.isDigit : Reader (List Char)).Misses text) :
    (do exactly "."; someRun Decimal.isDigit : Reader (List Char)).Misses (text ++ further) := by
  by_cases point : text.head? = some '.'
  · obtain ⟨more, same⟩ := List.head?_eq_some_iff.mp point
    have behind (more : List Char) : exactly "." ('.' :: more) = .done () more := exactly_append "." more
    obtain ⟨left, complaint, missed⟩ := missed
    rw [same, bind_done (behind more)] at missed
    rw [same]
    exact bind_then_misses (behind (more ++ further))
      (some_run_misses_longer sequel rfl ⟨left, complaint, missed⟩)
  · refine bind_misses (exactly_misses_head rfl ?_)
    cases text with
    | nil =>
        intro first
        have ends : Ends (· == '.') further := sequel.ends rfl
        cases ends '.' first
    | cons c more => exact point

theorem number_text_longer {text found rest : List Char} (done : numberText text = .done found rest) :
    numberText (text ++ further) = .done found (rest ++ further) := by
  obtain ⟨whole, middle, first, others⟩ := bind_eq_done done
  obtain ⟨fraction, left, second, last⟩ := bind_eq_done others
  have again : optional (do exactly "."; someRun Decimal.isDigit) (middle ++ further) =
      .done fraction (left ++ further) := by
    rcases optional_eq_done second with ⟨digits, same, both⟩ | ⟨same, unread, missed⟩
    · obtain ⟨_, behind, point, run⟩ := bind_eq_done both
      rw [same]
      apply optional_done
      rw [exactly_eq_done point, List.append_assoc, bind_done (exactly_append _ _)]
      exact some_run_longer sequel rfl run
    · rw [same, unread]
      exact optional_misses (fraction_misses_longer sequel missed)
  rw [numberText, bind_done (some_run_longer sequel rfl first), bind_done again]
  cases fraction <;> (cases last; rfl)

theorem exact_number : Exact further Decimal.isDigit number := by
  refine ⟨bites_number, fun _ => is_mark_of_digit, fun text value rest done => ?_⟩
  rw [number] at done ⊢
  split at done
  · rename_i digits middle read
    rw [number_text_longer sequel read]
    split at done
    · rename_i number plain
      cases done
      dsimp only
      rw [plain]
    · cases done
  · cases done
  · cases done

theorem behind?_longer {word text : List Char} (oneLine : '\n' ∉ word)
    (apart : behind? word text = none) : behind? word (text ++ further) = none := by
  obtain ⟨more, feed⟩ := sequel.feed
  induction word generalizing text with
  | nil => cases apart
  | cons c later ih =>
      obtain ⟨different, others⟩ := List.ne_and_not_mem_of_not_mem_cons oneLine
      cases text with
      | nil => rw [List.nil_append, feed, behind?, if_neg different]
      | cons d rest =>
          rw [behind?] at apart
          rw [List.cons_append, behind?]
          split at apart
          · rename_i same
            rw [if_pos same]
            exact ih others apart
          · rename_i different
            rw [if_neg different]

theorem sure_exactly {word : String} {c : Char} (starts : word.toList.head? = some c)
    (apart : c ∉ ['p', 'c', 'r']) (oneLine : '\n' ∉ word.toList) :
    Sure further (exactly word) (exactly word) := by
  intro text longer follows missed
  cases follows with
  | atEnd => exact exactly_misses_head starts (sequel.opening_ne apart)
  | behind =>
      apply exactly_misses
      apply behind?_longer sequel oneLine
      obtain ⟨left, complaint, missed⟩ := missed
      rw [exactly] at missed
      split at missed
      · cases missed
      · rename_i none
        exact none

omit sequel in
theorem keyword_missed {word : String} {text : List Char} (missed : (keyword word).Misses text) :
    text.takeWhile isWordChar ≠ word.toList := by
  intro same
  have whole : text = word.toList ++ text.dropWhile isWordChar := by
    rw [← same, List.takeWhile_append_dropWhile]
  have ends : Ends isWordChar (text.dropWhile isWordChar) := by
    intro c first
    have stopped := List.head?_dropWhile_not isWordChar text
    rw [first] at stopped
    exact stopped
  obtain ⟨left, complaint, missed⟩ := missed
  rw [whole, keyword_done ends] at missed
  cases missed

theorem keyword_misses_longer {word : String} (all : word.toList.all isWordChar = true)
    {text : List Char} (missed : (keyword word).Misses text) :
    (keyword word).Misses (text ++ further) := by
  apply keyword_misses all
  rw [sequel.take_while_append rfl]
  exact keyword_missed missed

theorem sure_keyword {word : String} (all : word.toList.all isWordChar = true)
    (nonempty : word ≠ "") (apart : word ∉ statementWords) :
    Sure further (keyword word) (keyword word) := by
  intro text longer follows missed
  cases follows with
  | atEnd => exact keyword_misses all (sequel.opening_word nonempty apart)
  | behind => exact keyword_misses_longer sequel all missed

theorem sure_one {accepts : Char → Bool} (refused : ∀ c ∈ ['\n', 'p', 'c', 'r'], accepts c = false) :
    Sure further (one accepts) (one accepts) := by
  intro text longer follows missed
  apply one_misses
  intro c first
  cases follows with
  | atEnd => exact refused c (List.mem_cons_of_mem _ (sequel.opening c first))
  | behind =>
      cases text with
      | nil => exact sequel.ends (refused '\n' List.mem_cons_self) c first
      | cons d rest =>
          cases first
          obtain ⟨left, complaint, missed⟩ := missed
          rw [one] at missed
          split at missed
          · cases missed
          · rename_i notAccepted
            exact Bool.eq_false_iff.mpr notAccepted

omit sequel in
theorem Follows.head {text longer : List Char} (follows : Follows further text longer) {c : Char}
    (first : text.head? = some c) : longer.head? = some c := by
  obtain ⟨more, same⟩ := List.head?_eq_some_iff.mp first
  subst same
  rw [follows.nonempty]
  rfl

theorem Follows.head_ne {text longer : List Char} (follows : Follows further text longer) {c : Char}
    (different : text.head? ≠ some c) (apart : c ∉ ['\n', 'p', 'c', 'r']) :
    longer.head? ≠ some c := by
  cases follows with
  | atEnd => exact sequel.opening_ne fun member => apart (List.mem_cons_of_mem _ member)
  | behind =>
      cases text with
      | nil =>
          obtain ⟨more, feed⟩ := sequel.feed
          rw [List.nil_append, feed]
          intro first
          cases first
          exact apart List.mem_cons_self
      | cons d more => exact different

theorem takes_word {word : String} {c : Char} (starts : word.toList.head? = some c)
    (letter : isWordChar c = true) (value : Scalar) :
    Takes further isWordChar (limit + 1) (do keyword word; return value : Reader Scalar)
      (do keyword word; return value) :=
  (exact_keyword sequel starts letter).takes.bind fun _ => .pure value

theorem sure_word {word : String} (all : word.toList.all isWordChar = true)
    (nonempty : word ≠ "") (apart : word ∉ statementWords) (value : Scalar) :
    Sure further (do keyword word; return value : Reader Scalar) (do keyword word; return value) :=
  (sure_keyword sequel all nonempty apart).bind fun _ => .pure value

-- Where a text begins that is not closed, no other literal begins.
theorem carries_literal : Carries further (limit + 1) literal literal := by
  have yes : Takes further isWordChar (limit + 1) (do keyword "true"; return Scalar.bool true)
      (do keyword "true"; return Scalar.bool true) := takes_word sequel (c := 't') rfl rfl _
  have no : Takes further isWordChar (limit + 1) (do keyword "false"; return Scalar.bool false)
      (do keyword "false"; return Scalar.bool false) := takes_word sequel (c := 'f') rfl rfl _
  have null : Takes further isWordChar (limit + 1) (do keyword "null"; return Scalar.null)
      (do keyword "null"; return Scalar.null) := takes_word sequel (c := 'n') rfl rfl _
  have number : Takes further Decimal.isDigit (limit + 1) (do return Scalar.number (← number))
      (do return Scalar.number (← number)) :=
    (exact_number sequel).takes.bind fun value => .pure (Scalar.number value)
  have others := yes.or_else (sure_word sequel rfl (by decide) (by decide) (.bool true))
    (no.or_else (sure_word sequel rfl (by decide) (by decide) (.bool false))
      (null.or_else (sure_word sequel rfl (by decide) (by decide) .null)
        (number.mono fun c digit => by simp [isWordChar, digit])))
  have text : Carries further (limit + 1) (do return Scalar.text (← stringLiteral))
      (do return .text (← stringLiteral)) :=
    exact_string_literal.carries.bind fun value => .pure (Scalar.text value)
  refine text.or_else_apart others.toCarriesBefore fun found longer value rest follows _ done => ?_
  obtain ⟨c, more, same, word, _⟩ := others.bites _ _ _ done
  refine bind_misses (string_literal_misses fun first => ?_)
  rw [follows.head (by rw [same]; rfl)] at first
  cases first
  cases word

theorem literal_misses_longer {text longer : List Char} {c : Char}
    (follows : Follows further text longer) (first : text.head? = some c)
    (starts : startsWord c = true) (missed : literal.Misses text) : literal.Misses longer := by
  have head := follows.head first
  obtain ⟨_, noText⟩ := or_else_misses_each missed
  obtain ⟨notTrue, noTrue⟩ := or_else_misses_each noText
  obtain ⟨notFalse, noFalse⟩ := or_else_misses_each noTrue
  obtain ⟨notNull, _⟩ := or_else_misses_each noFalse
  refine or_else_both_miss (bind_misses (string_literal_misses ?_)) ?_
  · rw [head]
    intro same
    cases same
    cases starts
  refine or_else_both_miss
    (sure_word sequel rfl (by decide) (by decide) _ text longer follows notTrue) ?_
  refine or_else_both_miss
    (sure_word sequel rfl (by decide) (by decide) _ text longer follows notFalse) ?_
  refine or_else_both_miss
    (sure_word sequel rfl (by decide) (by decide) _ text longer follows notNull) ?_
  refine bind_misses (number_misses ?_)
  intro d same
  rw [head] at same
  cases same
  exact starts_word_no_digit starts

theorem carries_signed_literal : Carries further (limit + 1) signedLiteral signedLiteral := by
  have minus : Carries further (limit + 1) (optional (exactly "-")) (optional (exactly "-")) :=
    CarriesBefore.optional (exact_exactly (c := '-') rfl rfl).carries
      (sure_exactly sequel (c := '-') rfl (by decide) (by decide))
  refine (carries_blank sequel).bind fun _ => minus.bind fun sign => ?_
  cases sign with
  | some _ =>
      exact (carries_blank sequel).bind fun _ => (exact_number sequel).carries.commit.bind fun _ => .pure _
  | none => exact (carries_literal sequel).expecting

end

end Tariff.Script
