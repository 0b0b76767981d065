import Tariff.Proofs.Script.ContinuedFormula

set_option autoImplicit false

namespace Tariff

namespace Script

open Reader

variable {further : List Char} {limit : Nat}

def NoQuote (rest : List Char) : Prop := (skipBlank rest).head? ≠ some '"'

theorem no_quote_of_head {text : List Char} {c : Char} (first : (skipBlank text).head? = some c)
    (different : c ≠ '"') : NoQuote text := by
  rw [NoQuote, first]
  intro same
  exact different (Option.some.inj same)

section

variable (sequel : Sequel further)

include sequel

-- The words that statements begin with may stand in the text that follows, but not within a word.
theorem keyword_misses_again {word : String} (all : word.toList.all isWordChar = true)
    {text longer : List Char} (follows : Follows further text longer) (nonempty : text ≠ [])
    (missed : (keyword word).Misses text) : (keyword word).Misses longer := by
  cases follows with
  | atEnd => exact absurd rfl nonempty
  | behind => exact keyword_misses_longer sequel all missed

theorem takes_constant_statement :
    Takes further isWordChar (limit + 1 + 1) constantStatement constantStatement :=
  (exact_keyword sequel (c := 'p') rfl rfl).takes.bind fun _ => (carries_blank sequel).bind fun _ =>
    (exact_name sequel).carries.commit.expecting.bind fun _ => (carries_blank sequel).bind fun _ =>
      (exact_exactly (c := '=') rfl rfl).carries.commit.expecting.bind fun _ =>
        (carries_signed_literal sequel).commit.bind fun _ => .pure _

theorem takes_scope :
    Takes further isWordChar (limit + 1) (scopeWord .camper <|> scopeWord .registration : Reader Scope)
      (scopeWord .camper <|> scopeWord .registration) := by
  have camper : Takes further isWordChar (limit + 1) (scopeWord .camper) (scopeWord .camper) :=
    (exact_keyword sequel (c := 'c') rfl rfl).takes.bind fun _ => .pure _
  have registration :
      Takes further isWordChar (limit + 1) (scopeWord .registration) (scopeWord .registration) :=
    (exact_keyword sequel (c := 'r') rfl rfl).takes.bind fun _ => .pure _
  refine ⟨camper.or_else_apart registration.toCarriesBefore ?_, camper.bites.or_else registration.bites⟩
  intro text longer value rest follows missed done
  obtain ⟨c, more, same, _⟩ := registration.bites _ _ _ done
  refine bind_misses (keyword_misses_again sequel rfl follows ?_ (missed.of_bind fun _ => .pure _))
  rw [same]
  exact List.cons_ne_nil c more

theorem carries_total_mark : Carries further (limit + 1) (optional totalMark) (optional totalMark) := by
  have mark : Takes further isMark (limit + 1)
      (do exactly "("; blank; keyword "total"; blank; commit (exactly ")"))
      (do exactly "("; blank; keyword "total"; blank; commit (exactly ")")) :=
    (exact_exactly (c := '(') rfl rfl).takes.bind fun _ => (carries_blank sequel).bind fun _ =>
      (exact_keyword sequel (c := 't') rfl rfl).carries.bind fun _ => (carries_blank sequel).bind
        fun _ => (exact_exactly (c := ')') rfl rfl).carries.commit
  have sure : Sure further (do exactly "("; blank; keyword "total"; blank; commit (exactly ")"))
      (do exactly "("; blank; keyword "total"; blank; commit (exactly ")")) := by
    refine .exact_then (exact_exactly (c := '(') rfl rfl)
      (sure_exactly sequel (c := '(') rfl (by decide) (by decide)) fun _ => ?_
    refine .blank_then sequel ?_ (bind_misses (bind_misses (exactly_misses rfl)))
    exact (sure_keyword sequel rfl (by decide) (by decide)).bind fun _ =>
      NeverMisses.blank.bind fun _ => .commit
  exact carries_optional_blank sequel mark sure (bind_misses (exactly_misses rfl))

-- A text that is not closed is no label, but then no colon comes next either.
theorem carries_label : CarriesBefore further NoQuote limit
    (optional (do blank; stringLiteral)) (optional (do blank; stringLiteral)) := by
  have label : Carries further limit (do blank; stringLiteral) (do blank; stringLiteral) :=
    (carries_blank sequel).bind fun _ => exact_string_literal.carries
  refine ⟨label.steady.optional, fun text longer found rest bound follows done noQuote => ?_⟩
  rcases optional_eq_done done with ⟨value, same, read⟩ | ⟨same, unread, _⟩
  · subst same
    rcases label.keeps _ _ _ _ bound follows read trivial with stuck | ⟨left, again, after⟩
    · exact .inl stuck
    · exact .inr ⟨left, optional_done again, after⟩
  · subst same
    rw [unread] at noQuote ⊢
    refine .inr ⟨longer, optional_misses (blank_then_misses (string_literal_misses ?_)), follows⟩
    cases follows with
    | atEnd =>
        rw [skip_blank_again]
        exact sequel.opening_ne (by decide)
    | behind =>
        rcases sequel.skip_blank_append text with after | ⟨_, same⟩
        · exact after.head_ne sequel noQuote (by decide)
        · rw [same]
          exact sequel.opening_ne (by decide)

-- What comes behind the label of a rule.
def labelled (scope : Scope) (name : String) (label : Option String) : Reader Statement := do
  let isTotal := (← optional totalMark).isSome
  if isTotal && scope == .camper then stop
  blank
  expecting ":" (commit (exactly ":"))
  let value ← expecting "rule body" (commit formula)
  return .rule scope ⟨name, label, .formula value⟩ isTotal

theorem carries_labelled (scope : Scope) (name : String) (label : Option String) :
    Carries further (limit + 1) (labelled scope name label) (labelled scope name label) := by
  refine (carries_total_mark sequel).bind fun mark => ?_
  have body : Carries further (limit + 1)
      (do
        blank
        expecting ":" (commit (exactly ":"))
        let value ← expecting "rule body" (commit formula)
        return Statement.rule scope ⟨name, label, .formula value⟩ mark.isSome)
      (do
        blank
        expecting ":" (commit (exactly ":"))
        let value ← expecting "rule body" (commit formula)
        return Statement.rule scope ⟨name, label, .formula value⟩ mark.isSome) :=
    (carries_blank sequel).bind fun _ =>
      (exact_exactly (c := ':') rfl rfl).carries.commit.expecting.bind fun _ =>
        (carries_formula sequel).commit.expecting.bind fun _ => .pure _
  dsimp only
  split
  · exact CarriesBefore.bind .stop fun _ => body
  · exact body

omit sequel in
theorem labelled_no_quote {scope : Scope} {name : String} {label : Option String}
    {text rest : List Char} {value : Statement}
    (done : labelled scope name label text = .done value rest) : NoQuote text := by
  obtain ⟨mark, middle, first, others⟩ := bind_eq_done done
  rcases optional_eq_done first with ⟨_, _, total⟩ | ⟨_, unread, _⟩
  · obtain ⟨_, begun, blanks, opening⟩ := bind_eq_done total
    obtain ⟨_, _, bracket, _⟩ := bind_eq_done opening
    cases blanks
    exact no_quote_of_head (by rw [exactly_eq_done bracket]; rfl) (show '(' ≠ '"' by decide)
  · subst unread
    dsimp only at others
    split at others
    · obtain ⟨_, _, stopped, _⟩ := bind_eq_done others
      cases stopped
    · obtain ⟨_, begun, blanks, colon⟩ := bind_eq_done others
      obtain ⟨_, _, colon, _⟩ := bind_eq_done colon
      cases blanks
      exact no_quote_of_head (by rw [exactly_eq_done (commit_eq_done (expecting_eq_done colon))]; rfl)
        (show ':' ≠ '"' by decide)

theorem takes_rule_statement :
    Takes further isWordChar (limit + 1 + 1) ruleStatement ruleStatement :=
  (takes_scope sequel).bind fun scope => (carries_blank sequel).bind fun _ =>
    (exact_name sequel).carries.commit.expecting.bind fun name =>
      (carries_label sequel).bind_needing (fun label => carries_labelled sequel scope name label)
        fun _ _ _ _ => labelled_no_quote

theorem takes_statement : Takes further isWordChar (limit + 1 + 1) statement statement := by
  have constant : Takes further isWordChar (limit + 1 + 1) constantStatement constantStatement :=
    takes_constant_statement sequel
  have rule : Takes further isWordChar (limit + 1 + 1) ruleStatement ruleStatement :=
    takes_rule_statement sequel
  refine ⟨constant.or_else_apart rule.toCarriesBefore ?_, constant.bites.or_else rule.bites⟩
  intro text longer value rest follows missed done
  obtain ⟨c, more, same, _⟩ := rule.bites _ _ _ done
  have noKeyword : (keyword "pricing").Misses text := missed.of_bind fun _ =>
    NeverMisses.blank.bind fun _ => NeverMisses.commit.expecting.bind fun _ =>
      NeverMisses.blank.bind fun _ => NeverMisses.commit.expecting.bind fun _ =>
        NeverMisses.commit.bind fun _ => .pure _
  refine bind_misses (keyword_misses_again sequel rfl follows ?_ noKeyword)
  rw [same]
  exact List.cons_ne_nil c more

end

abbrev nextStatement : Reader Statement := do
  blank
  statement

theorem of_string_eq_ok {text : String} {script : Script} (read : ofString text = .ok script) :
    ∃ found, statements text.toList = .done found [] ∧ script = ofStatements found := by
  unfold ofString ofChars at read
  split at read
  · rename_i found done
    cases read
    exact ⟨found, done, rfl⟩
  · cases read
  · cases read
  · cases read

theorem bites_statement : Bites isWordChar statement := by
  have sequel : Sequel ['\n'] := ⟨⟨[], rfl⟩, .inl (skip_blank_feed [])⟩
  exact (show Takes ['\n'] isWordChar (0 + 1 + 1) statement statement from
    takes_statement sequel).bites

theorem next_statement_shorter {text rest : List Char} {value : Statement}
    (done : statement (skipBlank text) = .done value rest) : rest.length < text.length :=
  Nat.lt_of_lt_of_le (bites_statement.shorter done) (length_skip_blank_le text)

theorem repeats_of_statements {text : List Char} {found : List Statement}
    (done : statements text = .done found []) :
    ∃ rest, Repeats nextStatement text found rest ∧ skipBlank rest = [] := by
  obtain ⟨values, rest, all, others⟩ := bind_eq_done done
  obtain ⟨_, left, blanks, last⟩ := bind_eq_done others
  cases blanks
  injection last with same ended
  rw [same] at all
  exact ⟨rest, repeats_of_many (fun _ _ _ => next_statement_shorter)
    (blank_then_misses statement_misses_end) all, ended⟩

theorem statements_of_repeats {text rest : List Char} {found : List Statement}
    (repeats : Repeats nextStatement text found rest) (ended : skipBlank rest = []) :
    statements text = .done found [] := by
  have reached : blank rest = .done () [] := by rw [blank, ended]
  rw [statements, bind_done (many_repeats repeats), bind_done reached]
  rfl

theorem Reader.Repeats.skip_blank_same {text other rest : List Char} {found : List Statement}
    (repeats : Repeats nextStatement text found rest) (ended : skipBlank rest = [])
    (same : skipBlank other = skipBlank text) :
    ∃ left, Repeats nextStatement other found left ∧ skipBlank left = [] := by
  have alike : nextStatement other = nextStatement text := by
    change statement (skipBlank other) = statement (skipBlank text)
    rw [same]
  cases repeats with
  | last misses =>
      obtain ⟨left, complaint, missed⟩ := misses
      exact ⟨other, .last ⟨left, complaint, alike.trans missed⟩, same.trans ended⟩
  | next done _ more =>
      have again := alike.trans done
      exact ⟨rest, .next again (next_statement_shorter again) more, ended⟩

theorem statement_word {text rest : List Char} {value : Statement}
    (done : statement text = .done value rest) :
    ∃ word ∈ statementWords, text.takeWhile isWordChar = word.toList := by
  have first {word : String} {middle : List Char} (member : word ∈ statementWords)
      (read : keyword word text = .done () middle) :
      ∃ word ∈ statementWords, text.takeWhile isWordChar = word.toList := by
    have all : ∀ word ∈ statementWords, word.toList.all isWordChar = true := by decide
    obtain ⟨whole, ends⟩ := keyword_eq_done read
    exact ⟨word, member, by rw [whole, take_while_whole (all word member) ends]⟩
  rcases or_else_eq_done done with constant | ⟨_, rule⟩
  · obtain ⟨_, _, word, _⟩ := bind_eq_done constant
    exact first (.head _) word
  · obtain ⟨_, _, scope, _⟩ := bind_eq_done rule
    rcases or_else_eq_done scope with camper | ⟨_, registration⟩
    · obtain ⟨_, _, word, _⟩ := bind_eq_done camper
      exact first (.tail _ (.head _)) word
    · obtain ⟨_, _, word, _⟩ := bind_eq_done registration
      exact first (.tail _ (.tail _ (.head _))) word

theorem sequel_of_statements {text : List Char} {found : List Statement}
    (done : statements text = .done found []) : Sequel ('\n' :: text) := by
  refine ⟨⟨text, rfl⟩, ?_⟩
  rw [skip_blank_feed]
  obtain ⟨rest, repeats, ended⟩ := repeats_of_statements done
  cases repeats with
  | last misses => exact .inl ended
  | next read _ _ => exact .inr (statement_word read)

theorem Reader.Repeats.concatenated (sequel : Sequel further) {text longer rest : List Char}
    {first second : List Statement} (repeats : Repeats nextStatement text first rest)
    (ended : skipBlank rest = []) (follows : Follows further text longer) {last : List Char}
    (others : Repeats nextStatement further second last) (endedLast : skipBlank last = []) :
    ∃ left, Repeats nextStatement longer (first ++ second) left ∧ skipBlank left = [] := by
  have carries (limit : Nat) : Carries further (limit + 1 + 1) nextStatement nextStatement :=
    (carries_blank sequel).bind fun _ => (takes_statement sequel).toCarriesBefore
  induction repeats generalizing longer with
  | @last text misses =>
      apply others.skip_blank_same endedLast
      cases follows with
      | atEnd => exact skip_blank_again further
      | behind =>
          rcases sequel.skip_blank_append text with after | ⟨_, same⟩
          · rw [ended] at after
            have again := skip_blank_again (text ++ further)
            generalize skipBlank (text ++ further) = skipped at after again ⊢
            cases after with
            | behind => exact again.symm
            | atEnd => rfl
          · exact same
  | @next text middle rest value values done shorter more ih =>
      rcases (carries text.length).keeps _ _ _ _ (by omega) follows done trivial with
        stuck | ⟨left, again, after⟩
      · have stuckLast := more.sinks (carries 0).steady stuck
        rw [Stuck, ended] at stuckLast
        cases stuckLast
      · obtain ⟨final, repeats, endedFinal⟩ := ih ended after
        exact ⟨final, .next again (follows.length_lt after shorter) repeats, endedFinal⟩

structure IsConcatenation (first second script : Script) : Prop where
  rules : script.rules = first.rules ++ second.rules
  constants : ∀ key, script.constants.get? key =
    (second.constants.get? key).or (first.constants.get? key)
  total : script.total = second.total.or first.total

theorem lookup_insert (members : Json.Members) (key other : String) (value : Json) :
    (members.insert key value).lookup other =
      if other = key then some value else members.lookup other := by
  have apart {a b : String} (different : ¬a = b) : (a == b) = false :=
    beq_eq_false_iff_ne.mpr different
  induction members with
  | nil => by_cases same : other = key <;> simp [Json.Members.insert, List.lookup_cons, same, apart]
  | cons head rest ih =>
      obtain ⟨first, held⟩ := head
      rw [Json.Members.insert]
      split
      · by_cases same : other = key <;> simp [List.lookup_cons, same, apart]
      · split
        · rename_i here
          subst here
          by_cases same : other = key <;> simp [List.lookup_cons, same, apart]
        · rename_i different
          by_cases same : other = first
          · subst same
            simp [Ne.symm different]
          · simp [List.lookup_cons, same, apart, ih]

theorem IsConcatenation.add {first second script : Script}
    (concatenation : IsConcatenation first second script) (statement : Statement) :
    IsConcatenation first (second.add statement) (script.add statement) := by
  cases statement with
  | constant key value =>
      refine ⟨concatenation.rules, fun other => ?_, concatenation.total⟩
      change (script.constants.members.insert key value).lookup other =
        ((second.constants.members.insert key value).lookup other).or (first.constants.get? other)
      have held : script.constants.members.lookup other =
          (second.constants.members.lookup other).or (first.constants.get? other) :=
        concatenation.constants other
      rw [lookup_insert, lookup_insert]
      by_cases same : other = key
      · rw [if_pos same, if_pos same, Option.some_or]
      · rw [if_neg same, if_neg same, held]
  | rule scope draft isTotal =>
      refine ⟨?_, concatenation.constants, ?_⟩
      · simp only [Script.add, concatenation.rules, List.append_assoc]
      · cases isTotal with
        | true => rfl
        | false => exact concatenation.total

theorem IsConcatenation.add_all {first second script : Script}
    (concatenation : IsConcatenation first second script) (statements : List Statement) :
    IsConcatenation first (statements.foldl Script.add second) (statements.foldl Script.add script) := by
  induction statements generalizing second script with
  | nil => exact concatenation
  | cons statement rest ih => exact ih (concatenation.add statement)

theorem of_statements_append (first second : List Statement) :
    IsConcatenation (ofStatements first) (ofStatements second) (ofStatements (first ++ second)) := by
  have start : IsConcatenation (ofStatements first) empty (ofStatements first) :=
    ⟨(List.append_nil _).symm, fun _ => rfl, rfl⟩
  have all := start.add_all second
  unfold ofStatements at all ⊢
  rwa [List.foldl_append]

theorem concatenated_scripts (first second : String) (one other : Script)
    (readFirst : ofString first = .ok one) (readSecond : ofString second = .ok other) :
    ∃ script, ofString (first ++ "\n" ++ second) = .ok script ∧ IsConcatenation one other script := by
  obtain ⟨found, done, same⟩ := of_string_eq_ok readFirst
  obtain ⟨others, doneSecond, sameSecond⟩ := of_string_eq_ok readSecond
  obtain ⟨rest, repeats, ended⟩ := repeats_of_statements done
  obtain ⟨last, repeatsSecond, endedSecond⟩ := repeats_of_statements doneSecond
  obtain ⟨start, fed, endedFed⟩ := repeatsSecond.skip_blank_same endedSecond (skip_blank_feed second.toList)
  obtain ⟨left, both, endedBoth⟩ := repeats.concatenated (sequel_of_statements doneSecond) ended
    (.behind first.toList) fed endedFed
  have text : (first ++ "\n" ++ second).toList = first.toList ++ '\n' :: second.toList := by simp
  refine ⟨ofStatements (found ++ others), ?_, ?_⟩
  · rw [ofString, text, ofChars, statements_of_repeats both endedBoth]
  · rw [same, sameSecond]
    exact of_statements_append found others

-- The first script ends in a comment, and the second one sets its constant again.
theorem concatenated_scripts_fee :
    ∃ one other script,
      ofString "pricing fee = 2\ncamper r: pricing.fee # per night" = .ok one ∧
      ofString "pricing fee = 3\nregistration total (total): sum(r)" = .ok other ∧
      ofString ("pricing fee = 2\ncamper r: pricing.fee # per night" ++ "\n" ++
        "pricing fee = 3\nregistration total (total): sum(r)") = .ok script ∧
      IsConcatenation one other script := by
  have accepted {text : String} (good : (ofString text).isOk = true) :
      ∃ script, ofString text = .ok script := by
    cases read : ofString text with
    | ok script => exact ⟨script, rfl⟩
    | error error => rw [read] at good; cases good
  obtain ⟨one, readFirst⟩ := accepted
    (show (ofString "pricing fee = 2\ncamper r: pricing.fee # per night").isOk = true by
      decide +kernel)
  obtain ⟨other, readSecond⟩ := accepted
    (show (ofString "pricing fee = 3\nregistration total (total): sum(r)").isOk = true by
      decide +kernel)
  obtain ⟨script, read, concatenation⟩ := concatenated_scripts _ _ one other readFirst readSecond
  exact ⟨one, other, script, readFirst, readSecond, read, concatenation⟩

end Script

end Tariff
