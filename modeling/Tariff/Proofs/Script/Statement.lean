import Tariff.RuleSet.Printer
import Tariff.Script.Document
import Tariff.Proofs.Script.Constant
import Tariff.Proofs.Script.Reread

set_option autoImplicit false

namespace Tariff.Script

open Reader

variable {text rest more : List Char}

-- A script has fewer escapes than the quotes around a label, and keeps the others as they stand.
def labelChar (c : Char) : List Char :=
  if c ∈ ['"', '\\', '\n', '\t'] then [c] else Text.quoteChar c

def rereadLabel (label : String) : String := String.ofList (label.toList.flatMap labelChar)

theorem digit_char_plain (n : Nat) : Nat.digitChar n ≠ '"' ∧ Nat.digitChar n ≠ '\\' := by
  have digits : ∀ n < 16, Nat.digitChar n ≠ '"' ∧ Nat.digitChar n ≠ '\\' := by decide
  by_cases small : n < 16
  · exact digits n small
  · have star : Nat.digitChar n = '*' := by
      unfold Nat.digitChar
      repeat rw [if_neg (by omega)]
    rw [star]
    decide

theorem to_digits_plain (n : Nat) : ∀ c ∈ Nat.toDigits 16 n, c ≠ '"' ∧ c ≠ '\\' := by
  have core : ∀ fuel n found, (∀ c ∈ found, c ≠ '"' ∧ c ≠ '\\') →
      ∀ c ∈ Nat.toDigitsCore 16 fuel n found, c ≠ '"' ∧ c ≠ '\\' := by
    intro fuel
    induction fuel with
    | zero => exact fun n found plain => plain
    | succ fuel ih =>
        intro n found plain
        have longer : ∀ c ∈ Nat.digitChar (n % 16) :: found, c ≠ '"' ∧ c ≠ '\\' :=
          List.forall_mem_cons.mpr ⟨digit_char_plain _, plain⟩
        unfold Nat.toDigitsCore
        dsimp only
        split
        · exact longer
        · exact ih _ _ longer
  exact core _ _ _ (by intro c member; cases member)

theorem string_tail_run {plain value : List Char} (all : ∀ c ∈ plain, c ≠ '"' ∧ c ≠ '\\')
    (tail : stringTail text = .done value rest) :
    stringTail (plain ++ text) = .done (plain ++ value) rest := by
  induction plain with
  | nil => exact tail
  | cons c more ih =>
      obtain ⟨here, later⟩ := List.forall_mem_cons.mp all
      exact string_tail_plain here.1 here.2 (ih later)

theorem quote_char_read (c : Char) {value : List Char} (tail : stringTail text = .done value rest) :
    stringTail (Text.quoteChar c ++ text) = .done (labelChar c ++ value) rest := by
  by_cases escaped : c ∈ ['"', '\\', '\n', '\t']
  · rw [labelChar, if_pos escaped]
    simp only [List.mem_cons, List.not_mem_nil, or_false] at escaped
    rcases escaped with same | same | same | same
    · subst same
      exact string_tail_escape '"' tail
    · subst same
      exact string_tail_escape '\\' tail
    · subst same
      exact string_tail_escape 'n' tail
    · subst same
      exact string_tail_escape 't' tail
  · rw [labelChar, if_neg escaped]
    simp only [List.mem_cons, List.not_mem_nil, or_false, not_or] at escaped
    obtain ⟨noQuote, noBackslash, noFeed, noTab⟩ := escaped
    rw [Text.quoteChar, if_neg noQuote, if_neg noBackslash, if_neg noFeed]
    by_cases return_ : c = '\r'
    · rw [if_pos return_]
      exact string_tail_escape 'r' tail
    · rw [if_neg return_, if_neg noTab]
      by_cases null : c = '\x00'
      · rw [if_pos null]
        exact string_tail_escape '0' tail
      · rw [if_neg null]
        cases Text.isUnprintable c with
        | true =>
            have plain : ∀ d ∈ '\x7b' :: (Nat.toDigits 16 c.toNat ++ ['\x7d']), d ≠ '"' ∧ d ≠ '\\' := by
              intro d member
              rcases List.mem_cons.mp member with same | inside
              · rw [same]
                decide
              · rcases List.mem_append.mp inside with digit | last
                · exact to_digits_plain _ d digit
                · rw [List.mem_singleton.mp last]
                  decide
            have read := string_tail_escape 'u' (string_tail_run plain tail)
            rw [if_pos rfl]
            simpa [Text.codePoint, unescape] using read
        | false =>
            rw [if_neg Bool.false_ne_true]
            exact string_tail_plain noQuote noBackslash tail

theorem label_read (label : String) :
    stringLiteral ((Text.quote label).toList ++ rest) = .done (rereadLabel label) rest := by
  have tail : stringTail (label.toList.flatMap Text.quoteChar ++ '"' :: rest) =
      .done (label.toList.flatMap labelChar) rest := by
    induction label.toList with
    | nil => rfl
    | cons c more ih =>
        rw [List.flatMap_cons, List.flatMap_cons, List.append_assoc]
        exact quote_char_read c ih
  have chars : (Text.quote label).toList ++ rest =
      '"' :: (label.toList.flatMap Text.quoteChar ++ '"' :: rest) := by
    simp [Text.quote]
  have quote : exactly "\"" ('"' :: (label.toList.flatMap Text.quoteChar ++ '"' :: rest)) =
      .done () (label.toList.flatMap Text.quoteChar ++ '"' :: rest) := exactly_append "\"" _
  rw [chars, stringLiteral, bind_done quote, bind_done tail]
  rfl

def constantChars (key : String) (value : Json) : List Char :=
  "pricing".toList ++ ' ' :: (key.toList ++ ' ' :: '=' :: ' ' :: value.chars)

theorem skip_blank_opens (opens : Opens text) : blank (' ' :: text) = .done () text := by
  rw [blank, skip_blank_space, opens.skip_blank]

theorem IsName.opens {name : List Char} (isName : IsName name) (rest : List Char) :
    Opens (name ++ rest) := by
  obtain ⟨c, later, same, starts⟩ := isName.starts
  rw [same]
  exact ⟨c, later ++ rest, rfl, by simp [opensOperand, is_word_char_of_starts_word starts]⟩

theorem constant_statement_of_literal {key : String} {value : Scalar} {spelled : List Char}
    (isName : IsName key.toList) (literal : signedLiteral spelled = .done value rest) :
    constantStatement ("pricing".toList ++ ' ' :: (key.toList ++ ' ' :: '=' :: ' ' :: spelled)) =
      .done (.constant key value.toJson) rest := by
  have word : keyword "pricing" ("pricing".toList ++
      ' ' :: (key.toList ++ ' ' :: '=' :: ' ' :: spelled)) =
      .done () (' ' :: (key.toList ++ ' ' :: '=' :: ' ' :: spelled)) :=
    keyword_done (ends_space _)
  have named : name (key.toList ++ ' ' :: '=' :: ' ' :: spelled) =
      .done key (' ' :: '=' :: ' ' :: spelled) :=
    name_read isName (ends_space _)
  have skipped : blank (' ' :: '=' :: ' ' :: spelled) = .done () ('=' :: ' ' :: spelled) := by
    rw [blank, skip_blank_space, skip_blank_mark (by decide)]
  have mark : exactly "=" ('=' :: ' ' :: spelled) = .done () (' ' :: spelled) := exactly_append "=" _
  have skips : SkipsSpace signedLiteral := SkipsSpace.blank.bind
  have read : signedLiteral (' ' :: spelled) = .done value rest := by
    rw [skips, literal]
  rw [constantStatement, bind_done word, bind_done (skip_blank_opens (isName.opens _)),
    bind_done (expecting_done (commit_done named)), bind_done skipped,
    bind_done (expecting_done (commit_done mark)), bind_done (commit_done read)]
  rfl

theorem constant_statement_read {key : String} {value : Scalar} (isName : IsName key.toList)
    (sayable : value.toJson.Sayable) (ends : Ends isPathChar rest) :
    constantStatement (constantChars key value.toJson ++ rest) =
      .done (.constant key value.toJson) rest := by
  obtain ⟨again, literal, restored⟩ := constant_read sayable ends
  have text : constantChars key value.toJson ++ rest = "pricing".toList ++
      ' ' :: (key.toList ++ ' ' :: '=' :: ' ' :: (value.toJson.chars ++ rest)) := by
    unfold constantChars
    simp only [List.append_assoc, List.cons_append]
  rw [text, constant_statement_of_literal isName literal, restored]

def labelChars : Option String → List Char
  | none => []
  | some label => ' ' :: (Text.quote label).toList

def totalChars (isTotal : Bool) : List Char := if isTotal then " (total)".toList else []

def ruleChars (scope : Scope) (isTotal : Bool) (name : String) (label : Option String)
    (body : List Char) : List Char :=
  scope.name.toList ++
    ' ' :: (name.toList ++ (labelChars label ++ (totalChars isTotal ++ ':' :: ' ' :: body)))

theorem total_chars_first (isTotal : Bool) (text : List Char) :
    ∃ c later, skipBlank (totalChars isTotal ++ ':' :: text) = c :: later ∧ (c = '(' ∨ c = ':') := by
  cases isTotal with
  | true =>
      refine ⟨'(', "total)".toList ++ ':' :: text, ?_, .inl rfl⟩
      exact (skip_blank_space _).trans (skip_blank_mark (by decide) _)
  | false => exact ⟨':', _, skip_blank_mark (by decide) _, .inr rfl⟩

theorem label_chars_read (label : Option String) (isTotal : Bool) (text : List Char) :
    optional (do blank; stringLiteral)
        (labelChars label ++ (totalChars isTotal ++ ':' :: text)) =
      .done (label.map rereadLabel) (totalChars isTotal ++ ':' :: text) := by
  cases label with
  | none =>
      obtain ⟨c, later, same, kind⟩ := total_chars_first isTotal text
      refine optional_misses (blank_then_misses (string_literal_misses ?_))
      rw [labelChars, List.nil_append, same]
      intro first
      cases first
      rcases kind with same | same <;> cases same
  | some label =>
      have skipped : blank (labelChars (some label) ++ (totalChars isTotal ++ ':' :: text)) =
          .done () ((Text.quote label).toList ++ (totalChars isTotal ++ ':' :: text)) := by
        rw [labelChars, List.cons_append, blank, skip_blank_space]
        have chars : (Text.quote label).toList =
            '"' :: (label.toList.flatMap Text.quoteChar ++ ['"']) := by simp [Text.quote]
        rw [chars, List.cons_append, skip_blank_mark (by decide)]
      apply optional_done
      rw [bind_done skipped, label_read]

theorem total_chars_read (isTotal : Bool) (text : List Char) :
    optional totalMark (totalChars isTotal ++ ':' :: text) =
      .done (if isTotal then some () else none) (':' :: text) := by
  cases isTotal with
  | true =>
      apply optional_done
      have opening : blank (" (total)".toList ++ ':' :: text) =
          .done () ('(' :: ("total".toList ++ ')' :: ':' :: text)) := by
        rw [blank]
        exact congrArg _ ((skip_blank_space _).trans (skip_blank_mark (by decide) _))
      have mark : exactly "(" ('(' :: ("total".toList ++ ')' :: ':' :: text)) =
          .done () ("total".toList ++ ')' :: ':' :: text) := exactly_append "(" _
      have inner : blank ("total".toList ++ ')' :: ':' :: text) =
          .done () ("total".toList ++ ')' :: ':' :: text) := by
        rw [blank]
        exact congrArg _ (skip_blank_mark (c := 't') (by decide) _)
      have ends : Ends isWordChar (')' :: ':' :: text) := by
        intro c first
        cases first
        decide
      have behind : blank (')' :: ':' :: text) = .done () (')' :: ':' :: text) := by
        rw [blank, skip_blank_mark (by decide)]
      have closing : exactly ")" (')' :: ':' :: text) = .done () (':' :: text) := exactly_append ")" _
      change totalMark (" (total)".toList ++ ':' :: text) = _
      rw [totalMark, bind_done opening, bind_done mark, bind_done inner,
        bind_done (keyword_done ends), bind_done behind, commit_done closing]
  | false =>
      refine optional_misses (blank_then_misses ?_)
      rw [totalChars, if_neg Bool.false_ne_true, List.nil_append, skip_blank_mark (by decide)]
      exact bind_misses (exactly_misses_head (c := '(') rfl (by simp))

theorem formula_read {formula : Formula} (legible : Legible formula)
    (stops : Stops comparisonMarks disjunctionWords rest) :
    Script.formula (' ' :: (formula.chars ++ rest)) = .done formula.reread rest := by
  rw [Script.formula, SkipsSpace.formula_within]
  refine (reads_formula formula legible _ ?_).whole stops
  rw [List.length_cons, List.length_append]
  omega

theorem scope_word_read (scope : Scope) (text : List Char) :
    (scopeWord .camper <|> scopeWord .registration : Reader Scope)
        (scope.name.toList ++ ' ' :: text) = .done scope (' ' :: text) := by
  have word : scopeWord scope (scope.name.toList ++ ' ' :: text) = .done scope (' ' :: text) := by
    rw [scopeWord, bind_done (keyword_done (ends_space text))]
    rfl
  cases scope with
  | camper => exact or_else_done word
  | registration =>
      have noCamper : (scopeWord .camper).Misses (Scope.registration.name.toList ++ ' ' :: text) :=
        bind_misses (bind_misses (exactly_misses rfl))
      exact (or_else_misses noCamper).trans word

theorem rule_statement_of_body {scope : Scope} {isTotal : Bool} {rule : String}
    {label : Option String} {value : Formula} {body : List Char} (isName : IsName rule.toList)
    (registered : isTotal = true → scope = .registration)
    (read : Script.formula body = .done value rest) :
    ruleStatement (scope.name.toList ++
        ' ' :: (rule.toList ++ (labelChars label ++ (totalChars isTotal ++ ':' :: body)))) =
      .done (.rule scope ⟨rule, label.map rereadLabel, .formula value⟩ isTotal) rest := by
  have ends : Ends isWordChar (labelChars label ++ (totalChars isTotal ++ ':' :: body)) := by
    intro c first
    cases label with
    | some label => cases first; decide
    | none => cases isTotal <;> (cases first; decide)
  have colon : blank (':' :: body) = .done () (':' :: body) := by
    rw [blank, skip_blank_mark (by decide)]
  have mark : exactly ":" (':' :: body) = .done () body := exactly_append ":" _
  have unmarked : ¬((if isTotal then some () else none).isSome && scope == .camper) = true := by
    cases isTotal with
    | false => exact Bool.false_ne_true
    | true => rw [registered rfl]; decide
  rw [ruleStatement, bind_done (scope_word_read scope _),
    bind_done (skip_blank_opens (isName.opens _)),
    bind_done (expecting_done (commit_done (name_read isName ends))),
    bind_done (label_chars_read label isTotal _), bind_done (total_chars_read isTotal _)]
  dsimp only
  rw [if_neg unmarked, bind_done colon, bind_done (expecting_done (commit_done mark)),
    bind_done (expecting_done (commit_done read))]
  cases isTotal <;> rfl

end Tariff.Script
