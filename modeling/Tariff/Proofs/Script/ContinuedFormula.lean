import Tariff.Proofs.Script.ContinuedToken

set_option autoImplicit false

namespace Tariff.Script

open Reader

variable {further : List Char} {limit : Nat}

section

variable {α : Type} {first : Char → Bool} {next nextOther : Unit → Reader α} (sequel : Sequel further)
variable (takes : Takes further first limit (next ()) (nextOther ()))
variable (sure : Sure further (next ()) (nextOther ())) (ends : (next ()).Misses [])

include sequel takes sure ends

theorem carries_optional_blank :
    Carries further limit (optional (blank >>= next)) (optional (blank >>= nextOther)) :=
  CarriesBefore.optional ((carries_blank sequel).bind fun _ => takes.toCarriesBefore)
    (sure.blank_then sequel ends)

theorem carries_many_blank :
    Carries further limit (many (blank >>= next)) (many (blank >>= nextOther)) := by
  refine CarriesBefore.many ((carries_blank sequel).bind fun _ => takes.toCarriesBefore)
    (sure.blank_then sequel ends) (fun text value rest done => ?_) (blank_then_misses ends)
  have shorter := takes.bites.shorter (show next () (skipBlank text) = .done value rest from done)
  exact Nat.lt_of_lt_of_le shorter (length_skip_blank_le text)

end

section

variable (sequel : Sequel further)

include sequel

theorem carries_closing : Carries further limit closing closing :=
  (carries_blank sequel).bind fun _ => (exact_exactly (c := ')') rfl rfl).carries.commit

theorem carries_comma : Carries further limit comma comma :=
  (carries_blank sequel).bind fun _ => (exact_exactly (c := ',') rfl rfl).carries

theorem sure_comma : Sure further comma comma :=
  .blank_then sequel (sure_exactly sequel (c := ',') rfl (by decide) (by decide)) (exactly_misses rfl)

theorem takes_call_start {word : String} {c : Char} (starts : word.toList.head? = some c)
    (letter : isWordChar c = true) :
    Takes further isWordChar (limit + 1) (callStart word) (callStart word) :=
  (exact_keyword sequel starts letter).takes.bind fun _ => (carries_blank sequel).bind fun _ =>
    (exact_exactly (c := '(') rfl rfl).carries

theorem sure_call_start {word : String} {c : Char} (starts : word.toList.head? = some c)
    (all : word.toList.all isWordChar = true) (letter : isWordChar c = true)
    (apart : word ∉ statementWords) : Sure further (callStart word) (callStart word) := by
  have nonempty : word ≠ "" := by
    intro same
    subst same
    cases starts
  refine .exact_then (exact_keyword sequel starts letter) (sure_keyword sequel all nonempty apart) ?_
  intro _
  exact .blank_then sequel (sure_exactly sequel (c := '(') rfl (by decide) (by decide))
    (exactly_misses rfl)

omit sequel in
theorem never_misses_closing : NeverMisses closing := NeverMisses.blank.bind fun _ => .commit

theorem takes_sum_call : Takes further isWordChar (limit + 1) sumCall sumCall :=
  (takes_call_start sequel (c := 's') rfl rfl).bind fun _ =>
    ((carries_blank sequel).bind fun _ => (exact_name sequel).carries).commit.expecting.bind fun _ =>
      (carries_closing sequel).bind fun _ => .pure _

theorem sure_sum_call : Sure further sumCall sumCall :=
  (sure_call_start sequel (c := 's') rfl rfl rfl (by decide)).bind fun _ =>
    (NeverMisses.commit.expecting).bind fun _ => never_misses_closing.bind fun _ => .pure _

end

def NoComma (rest : List Char) : Prop := (skipBlank rest).head? ≠ some ','

def AtBracket (rest : List Char) : Prop := (skipBlank rest).head? = some ']'

section

variable (sequel : Sequel further) {nested other : Reader Formula}

include sequel

theorem Follows.head_skip_blank {text longer : List Char} (follows : Follows further text longer)
    {c : Char} (first : (skipBlank text).head? = some c) (noComment : c ≠ '#') :
    (skipBlank longer).head? = some c := by
  cases follows with
  | atEnd => cases first
  | behind =>
      rcases sequel.skip_blank_append text with after | ⟨stuck, _⟩
      · exact after.head first
      · rw [Stuck, first] at stuck
        cases stuck
        exact absurd rfl noComment

-- A list is over because no comma comes next, not because what is behind a comma is missed.
theorem carries_separated (carries : Carries further limit nested other) :
    CarriesBefore further NoComma limit (separated nested comma) (separated other comma) := by
  refine ⟨carries.steady.separated (show Carries further limit comma comma from carries_comma sequel).steady,
    fun text longer values rest bound follows done noComma => ?_⟩
  obtain ⟨value, middle, first, others⟩ := bind_eq_done done
  obtain ⟨more, left, second, last⟩ := bind_eq_done others
  cases last
  have step : Carries further limit (do let _ ← comma; nested) (do let _ ← comma; other) :=
    (carries_comma sequel).bind fun _ => carries
  have shorter (text : List Char) (value : Formula) (rest : List Char)
      (done : (do let _ ← comma; nested : Reader Formula) text = .done value rest) :
      rest.length < text.length := by
    obtain ⟨_, behind, comma, inner⟩ := bind_eq_done done
    have bites : Bites isMark (exactly ",") := .exactly (c := ',') rfl rfl
    have taken := bites.shorter (show exactly "," (skipBlank text) = .done () behind from comma)
    have blanks := length_skip_blank_le text
    have inside := carries.steady.shorter _ _ _ inner
    omega
  have repeats := repeats_of_many shorter (bind_misses (blank_then_misses (exactly_misses rfl))) second
  have missed : comma.Misses rest := blank_then_misses (exactly_misses_head rfl noComma)
  rcases carries.keeps _ _ _ _ bound follows first trivial with stuck | ⟨leftFirst, again, after⟩
  · exact .inl (repeats.sinks step.steady stuck)
  · have shorterFirst := carries.steady.shorter _ _ _ first
    rcases repeats.again step
        (fun last follows _ => bind_misses (sure_comma sequel rest last follows missed))
        (by omega) after with stuck | ⟨leftAll, repeatsAgain, afterAll⟩
    · exact .inl stuck
    · exact .inr ⟨leftAll, separated_repeats again repeatsAgain, afterAll⟩

theorem carries_separated_or_none (carries : Carries further limit nested other)
    (closes : ∀ text, AtBracket text → other.Misses text) :
    CarriesBefore further AtBracket limit (separatedOrNone nested comma)
      (separatedOrNone other comma) := by
  have list := carries_separated sequel carries
  refine ⟨list.steady.or_else (.pure []),
    fun text longer values rest bound follows done atBracket => ?_⟩
  have noComma : NoComma rest := by
    rw [NoComma, atBracket]
    decide
  rcases or_else_eq_done done with some | ⟨_, none⟩
  · rcases list.keeps _ _ _ _ bound follows some noComma with stuck | ⟨left, again, after⟩
    · exact .inl stuck
    · exact .inr ⟨left, or_else_done again, after⟩
  · cases none
    have missed := closes longer (follows.head_skip_blank sequel atBracket (by decide))
    exact .inr ⟨longer, separated_or_none_misses missed, follows⟩

end

def plainPrimary (nested : Reader Formula) : Reader Formula :=
  conditional nested <|> call nested <|> (do return .literal (← literal))
    <|> (do return .field (← path) none)

theorem is_mark_of_is_sign {c : Char} (sign : isSign c = true) : isMark c = true := by
  rw [isSign, Bool.or_eq_true, beq_iff_eq, beq_iff_eq] at sign
  rcases sign with same | same <;> (subst same; decide)

theorem is_mark_of_is_product_sign {c : Char} (sign : isProductSign c = true) : isMark c = true := by
  rw [isProductSign, Bool.or_eq_true, Bool.or_eq_true, beq_iff_eq, beq_iff_eq, beq_iff_eq] at sign
  rcases sign with (same | same) | same <;> (subst same; decide)

section

variable (sequel : Sequel further) {nested other : Reader Formula}
variable (carries : Carries further limit nested other)

include sequel carries

theorem carries_branch : Carries further limit (branch nested) (branch other) :=
  carries.commit.bind fun _ => (carries_blank sequel).bind fun _ =>
    (exact_keyword sequel (c := 't') rfl rfl).carries.commit.expecting.bind fun _ =>
      carries.commit.bind fun _ => .pure _

omit carries in
theorem sure_conditional : Sure further (conditional nested) (conditional other) := by
  have never : NeverMisses (branch nested) :=
    NeverMisses.commit.bind fun _ => NeverMisses.blank.bind fun _ =>
      NeverMisses.commit.expecting.bind fun _ => NeverMisses.commit.bind fun _ => .pure _
  exact (sure_keyword sequel rfl (by decide) (by decide)).bind fun _ => never.bind fun _ =>
    NeverMisses.many.bind fun _ => NeverMisses.optional.bind fun _ => .pure _

theorem takes_conditional :
    Takes further isWordChar (limit + 1) (conditional nested) (conditional other) := by
  have elif : Takes further isWordChar (limit + 1)
      (do keyword "elif"; commit (branch nested)) (do keyword "elif"; commit (branch other)) :=
    (exact_keyword sequel (c := 'e') rfl rfl).takes.bind fun _ =>
      (carries_branch sequel carries).commit
  have otherwise : Takes further isWordChar (limit + 1)
      (do keyword "else"; commit nested) (do keyword "else"; commit other) :=
    (exact_keyword sequel (c := 'e') rfl rfl).takes.bind fun _ => carries.commit
  have sureElif : Sure further (do keyword "elif"; commit (branch nested))
      (do keyword "elif"; commit (branch other)) :=
    (sure_keyword sequel rfl (by decide) (by decide)).bind fun _ => .commit
  have sureElse : Sure further (do keyword "else"; commit nested) (do keyword "else"; commit other) :=
    (sure_keyword sequel rfl (by decide) (by decide)).bind fun _ => .commit
  have ends {α : Type} {word : String} {read : Reader α} (nonempty : behind? word.toList [] = none) :
      (do keyword word; read).Misses [] := bind_misses (bind_misses (exactly_misses nonempty))
  refine (exact_keyword sequel (c := 'i') rfl rfl).takes.bind fun _ =>
    (carries_branch sequel carries).bind fun _ => .bind ?_ fun _ => .bind ?_ fun _ => .pure _
  · exact (carries_many_blank sequel elif sureElif (ends rfl)).mono (Nat.le_succ limit)
  · exact (carries_optional_blank sequel otherwise sureElse (ends rfl)).mono (Nat.le_succ limit)

omit carries in
theorem sure_extreme_call {op : Arithmetic} {c : Char} (starts : op.symbol.toList.head? = some c)
    (all : op.symbol.toList.all isWordChar = true) (letter : isWordChar c = true)
    (apart : op.symbol ∉ statementWords) :
    Sure further (extremeCall op nested) (extremeCall op other) :=
  (sure_call_start sequel starts all letter apart).bind fun _ =>
    NeverMisses.commit.bind fun _ => never_misses_closing.bind fun _ => .pure _

theorem takes_extreme_call {op : Arithmetic} {c : Char} (starts : op.symbol.toList.head? = some c)
    (letter : isWordChar c = true) :
    Takes further isWordChar (limit + 1) (extremeCall op nested) (extremeCall op other) := by
  refine (takes_call_start sequel starts letter).bind fun _ =>
    (carries_separated sequel carries).commit.bind_needing
      (fun _ => (carries_closing sequel).bind fun _ => .pure _) ?_
  intro operands text formula rest done
  obtain ⟨_, middle, closed, _⟩ := bind_eq_done done
  have bites : Bites (· == ')') (exactly ")") := .exactly (c := ')') rfl rfl
  obtain ⟨c, more, same, isClose, _⟩ := bites _ _ _
    (commit_eq_done (show commit (exactly ")") (skipBlank text) = .done () middle from closed))
  rw [NoComma, same, beq_iff_eq.mp isClose]
  simp

omit carries in
theorem sure_truth_call : Sure further (truthCall nested) (truthCall other) :=
  (sure_call_start sequel (c := 'b') rfl rfl rfl (by decide)).bind fun _ =>
    NeverMisses.commit.bind fun _ => never_misses_closing.bind fun _ => .pure _

theorem takes_truth_call : Takes further isWordChar (limit + 1) (truthCall nested) (truthCall other) :=
  (takes_call_start sequel (c := 'b') rfl rfl).bind fun _ => carries.commit.bind fun _ =>
    (carries_closing sequel).bind fun _ => .pure _

omit carries in
theorem sure_call : Sure further (call nested) (call other) :=
  (sure_extreme_call sequel (c := 'm') rfl rfl rfl (by decide)).or_else <|
    (sure_extreme_call sequel (c := 'm') rfl rfl rfl (by decide)).or_else <|
      (sure_sum_call sequel).or_else (sure_truth_call sequel)

theorem takes_call : Takes further isWordChar (limit + 1) (call nested) (call other) :=
  (takes_extreme_call sequel carries (c := 'm') rfl rfl).or_else
      (sure_extreme_call sequel (c := 'm') rfl rfl rfl (by decide)) <|
    (takes_extreme_call sequel carries (c := 'm') rfl rfl).or_else
        (sure_extreme_call sequel (c := 'm') rfl rfl rfl (by decide)) <|
      (takes_sum_call sequel).or_else (sure_sum_call sequel) (takes_truth_call sequel carries)

theorem carries_parenthesis :
    Carries further (limit + 1) (parenthesis nested) (parenthesis other) :=
  ((exact_exactly (c := '(') rfl rfl).takes.bind fun _ => carries.bind fun _ =>
    (carries_closing sequel).bind fun _ => .pure _).toCarriesBefore

theorem takes_plain_primary :
    Takes further opensLiteral (limit + 1) (plainPrimary nested) (plainPrimary other) := by
  have word : ∀ c, isWordChar c = true → opensLiteral c = true := fun c word => by
    rw [opensLiteral, word, Bool.true_or]
  have path : Takes further startsWord (limit + 1) (do return Formula.field (← Script.path) none)
      (do return Formula.field (← Script.path) none) :=
    (exact_path sequel).takes.bind fun name => .pure (Formula.field name none)
  have value : Carries further (limit + 1) (do return Formula.literal (← literal))
      (do return Formula.literal (← literal)) :=
    (carries_literal sequel).bind fun value => .pure (Formula.literal value)
  have operand := value.or_else_apart path.toCarriesBefore
    fun text longer formula rest follows missed done => by
      obtain ⟨c, more, same, starts, _⟩ := path.bites _ _ _ done
      have noLiteral : literal.Misses text := missed.of_bind fun _ => .pure _
      exact bind_misses (literal_misses_longer sequel follows (by rw [same]; rfl) starts noLiteral)
  have operands : Takes further opensLiteral (limit + 1) _ _ :=
    ⟨operand, (bites_literal.bind fun _ => .pure _).or_else
      (path.bites.mono fun c starts => word c (is_word_char_of_starts_word starts))⟩
  exact ((takes_conditional sequel carries).mono word).or_else (sure_conditional sequel)
    (((takes_call sequel carries).mono word).or_else (sure_call sequel) operands)

theorem carries_primary : Carries further (limit + 1) (primary nested) (primary other) := by
  have others := takes_plain_primary sequel carries
  refine (carries_blank sequel).bind fun _ => CarriesBefore.expecting
    ((carries_parenthesis sequel carries).or_else_apart others.toCarriesBefore ?_)
  intro text longer formula rest follows _ done
  obtain ⟨c, more, same, opens, _⟩ := others.bites _ _ _ done
  refine bind_misses (exactly_misses_head (c := '(') rfl fun first => ?_)
  rw [follows.head (by rw [same]; rfl)] at first
  cases first
  cases opens

theorem primary_not_list {text rest : List Char} {value : Formula}
    (done : primary nested text = .done value rest) : (skipBlank text).head? ≠ some '[' := by
  obtain ⟨_, middle, blanks, inner⟩ := bind_eq_done done
  cases blanks
  rcases or_else_eq_done (expecting_eq_done inner) with inside | ⟨_, plain⟩
  · obtain ⟨_, behind, opening, _⟩ := bind_eq_done inside
    rw [exactly_eq_done opening]
    simp
  · obtain ⟨c, more, same, opens, _⟩ := (takes_plain_primary sequel carries).bites _ _ _ plain
    rw [same]
    intro first
    cases first
    cases opens

theorem carries_defaulted : Carries further (limit + 1) (defaulted nested) (defaulted other) := by
  have mark : Takes further isMark (limit + 1) (exactly "??") (exactly "??") :=
    (exact_exactly (c := '?') rfl rfl).takes
  have sure : Sure further (exactly "??") (exactly "??") :=
    sure_exactly sequel (c := '?') rfl (by decide) (by decide)
  refine (carries_primary sequel carries).bind fun formula =>
    (carries_optional_blank sequel mark sure (exactly_misses rfl)).bind fun found => ?_
  cases found with
  | none => exact .pure _
  | some _ =>
      refine (carries_signed_literal sequel).commit.bind fun default => ?_
      unfold withDefault
      split
      · exact .pure _
      · exact .stop

theorem carries_signed : Carries further (limit + 1) (signed nested) (signed other) := by
  have step : Takes further isSign (limit + 1) (do let sign ← one isSign; blank; return sign)
      (do let sign ← one isSign; blank; return sign) :=
    (exact_one fun _ => is_mark_of_is_sign).takes.bind fun sign =>
      (carries_blank sequel).bind fun _ => .pure sign
  have sure : Sure further (do let sign ← one isSign; blank; return sign)
      (do let sign ← one isSign; blank; return sign) :=
    (sure_one sequel (by decide)).bind fun sign => NeverMisses.blank.bind fun _ => .pure sign
  refine (carries_blank sequel).bind fun _ => .bind (CarriesBefore.many step.toCarriesBefore sure
    (fun _ _ _ => step.bites.shorter) (bind_misses ⟨[], .none, rfl⟩)) fun signs => ?_
  have operand := carries_defaulted sequel carries
  dsimp only
  split
  · exact operand.bind fun _ => .pure _
  · exact operand.commit.bind fun _ => .pure _

-- No signs are read where a list begins, so nothing else is.
theorem signed_not_list {text rest : List Char} {value : Formula}
    (done : signed nested text = .done value rest) : text.head? ≠ some '[' := by
  intro first
  obtain ⟨more, same⟩ := List.head?_eq_some_iff.mp first
  subst same
  have start : skipBlank ('[' :: more) = '[' :: more := skip_blank_mark rfl more
  have blanks : blank ('[' :: more) = .done () ('[' :: more) := by rw [blank, start]
  have none : many (do let sign ← one isSign; blank; return sign) ('[' :: more) =
      .done [] ('[' :: more) := many_misses (bind_misses ⟨_, .none, rfl⟩)
  rw [signed, bind_done blanks, bind_done none, List.isEmpty_nil, if_pos rfl] at done
  obtain ⟨_, _, operand, _⟩ := bind_eq_done done
  obtain ⟨_, _, head, _⟩ := bind_eq_done operand
  exact primary_not_list sequel carries head (by rw [start]; rfl)

end

theorem carries_chain (sequel : Sequel further) {signs : Char → Bool} {operand other : Reader Formula}
    (carries : Carries further (limit + 1) operand other)
    (marks : ∀ c, signs c = true → isMark c = true)
    (refused : ∀ c ∈ ['\n', 'p', 'c', 'r'], signs c = false) :
    Carries further (limit + 1) (chain signs operand) (chain signs other) := by
  have step : Takes further signs (limit + 1)
      (do let sign ← one signs; let right ← commit operand; return (sign, right))
      (do let sign ← one signs; let right ← commit other; return (sign, right)) :=
    (exact_one marks).takes.bind fun sign =>
      (carries.mono (Nat.le_succ limit)).commit.bind fun right => .pure (sign, right)
  have sure : Sure further
      (do let sign ← one signs; let right ← commit operand; return (sign, right))
      (do let sign ← one signs; let right ← commit other; return (sign, right)) :=
    (sure_one sequel refused).bind fun sign => NeverMisses.commit.bind fun right => .pure (sign, right)
  exact carries.bind fun first =>
    (carries_many_blank sequel step sure (bind_misses ⟨[], .none, rfl⟩)).bind fun more => .pure _

theorem sure_either_case (sequel : Sequel further) {lower upper : String}
    (all : lower.toList.all isWordChar = true) (alsoAll : upper.toList.all isWordChar = true)
    (nonempty : lower ≠ "") (alsoNonempty : upper ≠ "") (apart : lower ∉ statementWords)
    (alsoApart : upper ∉ statementWords) :
    Sure further (eitherCase lower upper) (eitherCase lower upper) :=
  (sure_keyword sequel all nonempty apart).or_else (sure_keyword sequel alsoAll alsoNonempty alsoApart)

section

variable (sequel : Sequel further)

include sequel

theorem takes_either_case {lower upper : String} {c d : Char} (starts : lower.toList.head? = some c)
    (alsoStarts : upper.toList.head? = some d) (letter : isWordChar c = true)
    (alsoLetter : isWordChar d = true) (sure : Sure further (keyword lower) (keyword lower)) :
    Takes further isWordChar limit (eitherCase lower upper) (eitherCase lower upper) :=
  (exact_keyword sequel starts letter).takes.or_else sure
    (exact_keyword sequel alsoStarts alsoLetter).takes

theorem carries_joined {lower upper : String} {build : List Formula → Formula}
    {operand other : Reader Formula} (carries : Carries further (limit + 1) operand other)
    (word : Takes further isWordChar (limit + 1) (eitherCase lower upper) (eitherCase lower upper))
    (sure : Sure further (eitherCase lower upper) (eitherCase lower upper))
    (ends : (eitherCase lower upper).Misses []) :
    Carries further (limit + 1) (joined lower upper build operand)
      (joined lower upper build other) := by
  have step : Takes further isWordChar (limit + 1) (do eitherCase lower upper; commit operand)
      (do eitherCase lower upper; commit other) :=
    word.bind fun _ => (carries.mono (Nat.le_succ limit)).commit
  have sureStep : Sure further (do eitherCase lower upper; commit operand)
      (do eitherCase lower upper; commit other) := sure.bind fun _ => .commit
  refine carries.bind fun first =>
    (carries_many_blank sequel step sureStep (bind_misses ends)).bind fun more => ?_
  split
  · exact .pure _
  · exact .pure _

omit sequel in
theorem symbol_first (comparison : Comparison) :
    ∃ c ∈ ['=', '!', '<', '>'], comparison.symbol.toList.head? = some c := by
  cases comparison <;> decide

omit sequel in
theorem takes_symbol (comparison : Comparison) :
    Takes further isMark (limit + 1) (symbol comparison) (symbol comparison) := by
  obtain ⟨c, member, starts⟩ := symbol_first comparison
  have marks : ∀ c ∈ ['=', '!', '<', '>'], isMark c = true := by decide
  exact (exact_exactly starts (marks c member)).takes.bind fun _ => .pure comparison

theorem sure_symbol (comparison : Comparison) :
    Sure further (symbol comparison) (symbol comparison) := by
  obtain ⟨c, member, starts⟩ := symbol_first comparison
  have apart : ∀ c ∈ ['=', '!', '<', '>'], c ∉ ['p', 'c', 'r'] := by decide
  have oneLine : '\n' ∉ comparison.symbol.toList := by cases comparison <;> decide
  exact (sure_exactly sequel starts (apart c member) oneLine).bind fun _ => .pure comparison

theorem takes_comparison_symbol (limit : Nat) :
    Takes further isMark (limit + 1) comparisonSymbol comparisonSymbol ∧
      Sure further comparisonSymbol comparisonSymbol := by
  have either {first second : Reader Comparison}
      (one : Takes further isMark (limit + 1) first first ∧ Sure further first first)
      (two : Takes further isMark (limit + 1) second second ∧ Sure further second second) :
      Takes further isMark (limit + 1) (first <|> second) (first <|> second) ∧
        Sure further (first <|> second) (first <|> second) :=
    ⟨one.1.or_else one.2 two.1, one.2.or_else two.2⟩
  have each (comparison : Comparison) :
      Takes further isMark (limit + 1) (symbol comparison) (symbol comparison) ∧
        Sure further (symbol comparison) (symbol comparison) :=
    ⟨takes_symbol comparison, sure_symbol sequel comparison⟩
  unfold comparisonSymbol
  repeat' apply either
  all_goals exact each _

end

section

variable (sequel : Sequel further) {nested other : Reader Formula}
variable (carries : Carries further limit nested other)
variable (closes : ∀ text, AtBracket text → other.Misses text)

include sequel carries

theorem carries_sum : Carries further (limit + 1) (sum nested) (sum other) :=
  carries_chain sequel (carries_chain sequel (carries_signed sequel carries)
    (fun _ => is_mark_of_is_product_sign) (by decide)) (fun _ => is_mark_of_is_sign) (by decide)

theorem sum_not_list {text rest : List Char} {value : Formula}
    (done : sum nested text = .done value rest) : text.head? ≠ some '[' := by
  obtain ⟨_, _, product, _⟩ := bind_eq_done done
  obtain ⟨_, _, operand, _⟩ := bind_eq_done product
  exact signed_not_list sequel carries operand

include closes

theorem carries_candidates :
    Carries further (limit + 1) (candidates nested) (candidates other) := by
  refine ((exact_exactly (c := '[') rfl rfl).takes.bind fun _ =>
    (carries_separated_or_none sequel carries closes).bind_needing (fun formulas =>
      (carries_blank sequel).bind fun _ => (exact_exactly (c := ']') rfl rfl).carries.bind fun _ =>
        .pure formulas) ?_).toCarriesBefore
  intro formulas text result rest done
  obtain ⟨_, begun, blanks, others⟩ := bind_eq_done done
  obtain ⟨_, middle, bracket, _⟩ := bind_eq_done others
  cases blanks
  rw [AtBracket, exactly_eq_done bracket]
  rfl

theorem carries_container (needle : Formula) :
    Carries further (limit + 1) (container nested needle) (container other needle) := by
  refine CarriesBefore.or_else_apart
    ((carries_candidates sequel carries closes).bind fun formulas => .pure _)
    ((carries_sum sequel carries).bind fun haystack => .pure _) ?_
  intro text longer value rest follows _ done
  obtain ⟨_, middle, operand, _⟩ := bind_eq_done done
  have noBracket := sum_not_list sequel carries operand
  exact bind_misses (bind_misses (exactly_misses_head (c := '[') rfl
    (follows.head_ne sequel noBracket (by decide))))

theorem carries_comparison :
    Carries further (limit + 1) (comparison nested) (comparison other) := by
  have operand := carries_sum sequel carries
  obtain ⟨symbols, sureSymbols⟩ := takes_comparison_symbol sequel limit
  have noSymbol : comparisonSymbol.Misses [] := comparison_symbol_misses (by simp)
  refine operand.bind fun left =>
    (carries_optional_blank sequel symbols sureSymbols noSymbol).bind fun found => ?_
  cases found with
  | some comparison => exact operand.commit.bind fun _ => .pure _
  | none =>
      refine (carries_optional_blank sequel (exact_keyword sequel (c := 'i') rfl rfl).takes
        (sure_keyword sequel rfl (by decide) (by decide))
        (bind_misses (exactly_misses rfl))).bind fun word => ?_
      cases word with
      | some _ =>
          exact (carries_blank sequel).bind fun _ =>
            (carries_container sequel carries closes left).commit
      | none => exact .pure _

theorem carries_negated : Carries further (limit + 1) (negated nested) (negated other) := by
  have sure : Sure further (eitherCase "not" "NOT") (eitherCase "not" "NOT") :=
    sure_either_case sequel rfl rfl (by decide) (by decide) (by decide) (by decide)
  have step : Takes further isWordChar (limit + 1) (do eitherCase "not" "NOT"; blank)
      (do eitherCase "not" "NOT"; blank) :=
    (takes_either_case sequel (c := 'n') (d := 'N') rfl rfl rfl rfl
      (sure_keyword sequel rfl (by decide) (by decide))).bind fun _ => carries_blank sequel
  have sureStep : Sure further (do eitherCase "not" "NOT"; blank) (do eitherCase "not" "NOT"; blank) :=
    sure.bind fun _ => .blank
  have ends : (do eitherCase "not" "NOT"; blank).Misses [] :=
    bind_misses (or_else_both_miss (bind_misses (exactly_misses rfl)) (bind_misses (exactly_misses rfl)))
  refine (carries_blank sequel).bind fun _ => .bind (CarriesBefore.many step.toCarriesBefore sureStep
    (fun _ _ _ => step.bites.shorter) ends) fun nots => ?_
  have operand := carries_comparison sequel carries closes
  dsimp only
  split
  · exact operand.bind fun _ => .pure _
  · exact operand.commit.bind fun _ => .pure _

theorem carries_disjunction :
    Carries further (limit + 1) (disjunction nested) (disjunction other) := by
  have ends {lower upper : String} (noLower : behind? lower.toList [] = none)
      (noUpper : behind? upper.toList [] = none) : (eitherCase lower upper).Misses [] :=
    or_else_both_miss (bind_misses (exactly_misses noLower)) (bind_misses (exactly_misses noUpper))
  have all : Carries further (limit + 1) (conjunction nested) (conjunction other) :=
    carries_joined sequel (carries_negated sequel carries closes)
      (takes_either_case sequel (c := 'a') (d := 'A') rfl rfl rfl rfl
        (sure_keyword sequel rfl (by decide) (by decide)))
      (sure_either_case sequel rfl rfl (by decide) (by decide) (by decide) (by decide)) (ends rfl rfl)
  exact carries_joined sequel all
    (takes_either_case sequel (c := 'o') (d := 'O') rfl rfl rfl rfl
      (sure_keyword sequel rfl (by decide) (by decide)))
    (sure_either_case sequel rfl rfl (by decide) (by decide) (by decide) (by decide)) (ends rfl rfl)

end

theorem formula_within_misses_bracket (depth : Nat) (text : List Char) (atBracket : AtBracket text) :
    (formulaWithin depth).Misses text := by
  cases depth with
  | zero => exact ⟨text, .none, rfl⟩
  | succ depth =>
      obtain ⟨rest, same⟩ := List.head?_eq_some_iff.mp atBracket
      have reached : blank text = .done () (']' :: rest) := by rw [blank, same]
      have begins : blank (']' :: rest) = .done () (']' :: rest) := by
        rw [blank, skip_blank_mark (by decide)]
      obtain ⟨left, complaint, missed⟩ :=
        (formula_within_misses : (formulaWithin (depth + 1)).Misses (']' :: rest))
      refine ⟨left, complaint, ?_⟩
      rw [formulaWithin, bind_done begins] at missed
      rw [formulaWithin, bind_done reached, missed]

-- With more text more levels may be nested; those of the text alone are enough for it.
theorem carries_formula_within (sequel : Sequel further) (depth : Nat) : ∀ deeper, depth ≤ deeper →
    Carries further depth (formulaWithin depth) (formulaWithin deeper) := by
  induction depth with
  | zero =>
      intro deeper _
      exact ⟨.miss, fun _ _ _ _ bound => absurd bound (Nat.not_lt_zero _)⟩
  | succ depth ih =>
      intro deeper le
      obtain ⟨more, same⟩ := Nat.exists_eq_succ_of_ne_zero (Nat.ne_of_gt (Nat.lt_of_lt_of_le (Nat.succ_pos depth) le))
      subst same
      exact (carries_blank sequel).bind fun _ =>
        carries_disjunction sequel (ih more (Nat.le_of_succ_le_succ le)) (formula_within_misses_bracket more)

theorem carries_formula (sequel : Sequel further) : Carries further limit formula formula := by
  have within (depth : Nat) := carries_formula_within sequel depth depth (Nat.le_refl depth)
  refine ⟨⟨fun text => (within (text.length + 1)).steady.shorter text,
    fun text => (within (text.length + 1)).steady.sinks text⟩, ?_⟩
  intro text longer value rest _ follows done _
  have le : text.length + 1 ≤ longer.length + 1 := by
    cases follows with
    | atEnd => exact Nat.succ_le_succ (Nat.zero_le _)
    | behind =>
        rw [List.length_append]
        omega
  exact (carries_formula_within sequel _ _ le).keeps text longer value rest (Nat.lt_succ_self _) follows
    done trivial

end Tariff.Script
