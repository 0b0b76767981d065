import Tariff.Proofs.Script.Statement

set_option autoImplicit false

namespace Tariff.Script

open Reader

variable {text rest more : List Char}

abbrev statement : Reader Statement := constantStatement <|> ruleStatement

def statementWords : List String := ["pricing", "camper", "registration"]

structure IsLine (line : List Char) (value : Statement) : Prop where
  starts : ∃ word ∈ statementWords, ∃ later, line = word.toList ++ ' ' :: later
  read : ∀ rest, Stops comparisonMarks disjunctionWords rest →
    statement (line ++ rest) = .done value rest

theorem IsLine.constant {key : String} {value : Scalar} (isName : IsName key.toList)
    (sayable : value.toJson.Sayable) :
    IsLine (constantChars key value.toJson) (.constant key value.toJson) :=
  ⟨⟨"pricing", .head _, _, rfl⟩,
    fun _ stops => or_else_done (constant_statement_read isName sayable stops.ends)⟩

theorem IsLine.of_literal {key : String} {value : Scalar} {spelled : List Char}
    (isName : IsName key.toList)
    (read : ∀ rest, Ends isPathChar rest → signedLiteral (spelled ++ rest) = .done value rest) :
    IsLine ("pricing".toList ++ ' ' :: (key.toList ++ ' ' :: '=' :: ' ' :: spelled))
      (.constant key value.toJson) := by
  refine ⟨⟨"pricing", .head _, _, rfl⟩, fun rest stops => or_else_done ?_⟩
  have text : "pricing".toList ++ ' ' :: (key.toList ++ ' ' :: '=' :: ' ' :: spelled) ++ rest =
      "pricing".toList ++ ' ' :: (key.toList ++ ' ' :: '=' :: ' ' :: (spelled ++ rest)) := by
    simp only [List.append_assoc, List.cons_append]
  rw [text]
  exact constant_statement_of_literal isName (read rest stops.ends)

theorem constant_statement_misses_scope (scope : Scope) (text : List Char) :
    constantStatement.Misses (scope.name.toList ++ text) := by
  refine bind_misses (keyword_misses_head (c := 'p') rfl ?_)
  cases scope <;> exact fun first => by cases first

theorem IsLine.of_body {scope : Scope} {isTotal : Bool} {name : String} {label : Option String}
    {body : List Char} {value : Formula} (isName : IsName name.toList)
    (registered : isTotal = true → scope = .registration)
    (read : ∀ rest, Stops comparisonMarks disjunctionWords rest →
      Script.formula (' ' :: (body ++ rest)) = .done value rest) :
    IsLine (ruleChars scope isTotal name label body)
      (.rule scope ⟨name, label.map rereadLabel, .formula value⟩ isTotal) := by
  have word : scope.name ∈ statementWords := by cases scope <;> decide
  refine ⟨⟨scope.name, word, _, rfl⟩, fun rest stops => ?_⟩
  have text : ruleChars scope isTotal name label body ++ rest =
      scope.name.toList ++ ' ' :: (name.toList ++ (labelChars label ++
        (totalChars isTotal ++ ':' :: ' ' :: (body ++ rest)))) := by
    simp [ruleChars]
  rw [text]
  exact (or_else_misses (constant_statement_misses_scope scope _)).trans
    (rule_statement_of_body isName registered (read rest stops))

theorem IsLine.rule {scope : Scope} {isTotal : Bool} {name : String} {label : Option String}
    {formula : Formula} (isName : IsName name.toList) (legible : Legible formula)
    (registered : isTotal = true → scope = .registration) :
    IsLine (ruleChars scope isTotal name label formula.chars)
      (.rule scope ⟨name, label.map rereadLabel, .formula formula.reread⟩ isTotal) :=
  .of_body isName registered fun _ stops => formula_read legible stops

inductive Lines : List Char → List Statement → Prop
  | none : Lines [] []
  | line {line more : List Char} {value : Statement} {others : List Statement}
      (isLine : IsLine line value) (lines : Lines more others) :
      Lines (line ++ '\n' :: more) (value :: others)

variable {values others : List Statement}

theorem Lines.append (lines : Lines text values) (further : Lines more others) :
    Lines (text ++ more) (values ++ others) := by
  induction lines with
  | none => exact further
  | line isLine _ ih =>
      rw [List.append_assoc, List.cons_append, List.cons_append]
      exact .line isLine ih

theorem Lines.join {α : Type} {line : α → String} {value : α → Statement} {items : List α}
    (each : ∀ item ∈ items, ∃ chars, (line item).toList = chars ++ ['\n'] ∧
      IsLine chars (value item)) :
    Lines (String.join (items.map line)).toList (items.map value) := by
  induction items with
  | nil => exact .none
  | cons item rest ih =>
      obtain ⟨⟨chars, same, isLine⟩, later⟩ := List.forall_mem_cons.mp each
      have text : (String.join ((item :: rest).map line)).toList =
          chars ++ '\n' :: (String.join (rest.map line)).toList := by
        rw [List.map_cons, String.join_cons, String.toList_append, same, List.append_assoc]
        rfl
      rw [text, List.map_cons]
      exact .line isLine (ih later)

theorem skip_blank_feed (text : List Char) : skipBlank ('\n' :: text) = skipBlank text := by
  rw [skipBlank, if_neg (by decide), if_pos (by decide)]

theorem statement_words_mark {word : String} (member : word ∈ statementWords) :
    ∃ c later, word.toList = c :: later ∧ isMark c = true := by
  simp only [statementWords, List.mem_cons, List.not_mem_nil, or_false] at member
  rcases member with same | same | same <;>
    exact same ▸ ⟨_, _, rfl, by decide⟩

theorem IsLine.skip_blank {line : List Char} {value : Statement} (isLine : IsLine line value)
    (rest : List Char) : skipBlank (line ++ rest) = line ++ rest := by
  obtain ⟨word, member, later, same⟩ := isLine.starts
  obtain ⟨c, more, first, mark⟩ := statement_words_mark member
  rw [same, first, List.cons_append, List.cons_append]
  exact skip_blank_mark mark _

theorem Stops.feed {marks : List Char} {words : List String}
    (stops : Stops marks words (' ' :: rest)) : Stops marks words ('\n' :: rest) := by
  have same : skipBlank ('\n' :: rest) = skipBlank (' ' :: rest) := by
    rw [skip_blank_feed, skip_blank_space]
  refine ⟨?_, ?_, ?_⟩
  · intro c first
    cases first
    decide
  · rw [same]
    exact stops.noMark
  · rw [same]
    exact stops.noWord

theorem stops_end : Stops comparisonMarks disjunctionWords ['\n'] := by
  refine ⟨?_, ?_, ?_⟩
  · intro c first
    cases first
    decide
  · intro c _ first
    cases first
  · intro word member same
    exact absurd member (String.toList_eq_nil_iff.mp same.symm ▸ by decide)

theorem Lines.stops (lines : Lines text values) :
    Stops comparisonMarks disjunctionWords ('\n' :: text) := by
  cases lines with
  | none => exact stops_end
  | @line line more value others isLine _ =>
      obtain ⟨word, member, later, same⟩ := isLine.starts
      have good : ∀ word ∈ statementWords, word.toList.all isWordChar = true ∧
          word ∉ disjunctionWords := by decide
      obtain ⟨all, apart⟩ := good word member
      obtain ⟨c, further, first, _⟩ := statement_words_mark member
      rw [same, List.append_assoc]
      exact (Stops.word first all (ends_space _) (by decide) apart).feed

theorem statement_misses_end : statement.Misses [] := by
  have constant : constantStatement.Misses [] := bind_misses (bind_misses (exactly_misses rfl))
  have camper : (scopeWord .camper).Misses [] := bind_misses (bind_misses (exactly_misses rfl))
  have registration : (scopeWord .registration).Misses [] :=
    bind_misses (bind_misses (exactly_misses rfl))
  exact or_else_both_miss constant (bind_misses (or_else_both_miss camper registration))

-- Reading goes on at the end of a line, so all lines but the first are read from the one before.
theorem Lines.repeats {start : List Char} (isStart : start = [] ∨ start = ['\n'])
    (lines : Lines text values) :
    ∃ rest, Repeats (do blank; statement) (start ++ text) values rest ∧ skipBlank rest = [] := by
  have skipped {start : List Char} (isStart : start = [] ∨ start = ['\n']) (text : List Char) :
      skipBlank (start ++ text) = skipBlank text := by
    rcases isStart with none | feed
    · rw [none, List.nil_append]
    · rw [feed]
      exact skip_blank_feed text
  induction lines generalizing start with
  | none =>
      have misses : (do blank; statement : Reader Statement).Misses (start ++ []) := by
        apply blank_then_misses
        rw [skipped isStart]
        exact statement_misses_end
      exact ⟨_, .last misses, skipped isStart []⟩
  | @line line more value others isLine lines ih =>
      obtain ⟨rest, repeats, ended⟩ := ih (.inr rfl)
      have done : (do blank; statement : Reader Statement) (start ++ (line ++ '\n' :: more)) =
          .done value ('\n' :: more) := by
        have reached : blank (start ++ (line ++ '\n' :: more)) = .done () (line ++ '\n' :: more) := by
          rw [blank, skipped isStart, isLine.skip_blank]
        rw [bind_done reached, isLine.read _ lines.stops]
      have shorter : ('\n' :: more).length < (start ++ (line ++ '\n' :: more)).length := by
        obtain ⟨word, _, later, same⟩ := isLine.starts
        simp only [same, List.length_append, List.length_cons]
        omega
      exact ⟨rest, .next done shorter repeats, ended⟩

theorem Lines.read (lines : Lines text values) : statements text = .done values [] := by
  obtain ⟨rest, repeats, ended⟩ := lines.repeats (.inl rfl)
  have found : many (do blank; statement) text = .done values rest := many_repeats repeats
  have reached : blank rest = .done () [] := by rw [blank, ended]
  rw [statements, bind_done found, bind_done reached]
  rfl

end Tariff.Script
