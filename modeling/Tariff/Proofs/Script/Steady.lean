import Tariff.Proofs.Script.Advance
import Tariff.Proofs.Script.Token

/-! A comment that is none, for a carriage return in it, cannot be passed: where one is next, it is
still next when a reader is done. -/

set_option autoImplicit false

namespace Tariff.Script

open Reader

def Stuck (text : List Char) : Prop := (skipBlank text).head? = some '#'

theorem Stuck.head {text : List Char} (stuck : Stuck text) :
    ∀ c ∈ text.head?, isMark c = false := by
  intro c first
  obtain ⟨more, same⟩ := List.head?_eq_some_iff.mp first
  cases mark : isMark c with
  | false => rfl
  | true =>
      rw [Stuck, same, skip_blank_mark mark, List.head?_cons, Option.some.injEq] at stuck
      rw [stuck] at mark
      cases mark

theorem stuck_skip_blank {text : List Char} : Stuck (skipBlank text) ↔ Stuck text := by
  rw [Stuck, Stuck, skip_blank_again]

namespace Reader

variable {α β : Type} {read : Reader α}

section

variable {text rest : List Char} {value : α}

theorem commit_eq_done (done : commit read text = .done value rest) :
    read text = .done value rest := by
  rw [commit] at done
  split at done
  · cases done
  · exact done

theorem expecting_eq_done {what : String} (done : expecting what read text = .done value rest) :
    read text = .done value rest := by
  rw [expecting] at done
  split at done
  · rename_i first
    cases done
    exact first
  · cases done
  · cases done

theorem or_else_eq_done {second : Reader α} (done : (read <|> second) text = .done value rest) :
    read text = .done value rest ∨ read.Misses text ∧ second text = .done value rest := by
  change orElse read second text = _ at done
  rw [orElse] at done
  split at done
  · rename_i left complaint missed
    exact .inr ⟨⟨left, complaint, missed⟩, done⟩
  · exact .inl done

theorem or_else_misses_each {second : Reader α} (misses : (read <|> second).Misses text) :
    read.Misses text ∧ second.Misses text := by
  obtain ⟨left, complaint, missed⟩ := misses
  change orElse read second text = _ at missed
  rw [orElse] at missed
  split at missed
  · rename_i other further first
    exact ⟨⟨other, further, first⟩, left, complaint, missed⟩
  · rename_i notMissed
    exact absurd missed (notMissed left complaint)

theorem optional_eq_done {found : Option α} (done : optional read text = .done found rest) :
    (∃ value, found = some value ∧ read text = .done value rest) ∨
      found = none ∧ rest = text ∧ read.Misses text := by
  rw [optional] at done
  split at done
  · rename_i value middle first
    cases done
    exact .inl ⟨value, rfl, first⟩
  · rename_i left complaint missed
    cases done
    exact .inr ⟨rfl, rfl, left, complaint, missed⟩
  · cases done

end

structure Steady (read : Reader α) : Prop where
  shorter : ∀ text value rest, read text = .done value rest → rest.length ≤ text.length
  sinks : ∀ text value rest, read text = .done value rest → Stuck text → Stuck rest

def Bites (first : Char → Bool) (read : Reader α) : Prop :=
  ∀ text value rest, read text = .done value rest →
    ∃ c more, text = c :: more ∧ first c = true ∧ rest.length ≤ more.length

theorem Bites.mono {first wider : Char → Bool} (bites : Bites first read)
    (within : ∀ c, first c = true → wider c = true) : Bites wider read := by
  intro text value rest done
  obtain ⟨c, more, same, accepted, shorter⟩ := bites text value rest done
  exact ⟨c, more, same, within c accepted, shorter⟩

theorem Bites.shorter {first : Char → Bool} (bites : Bites first read) {text rest : List Char}
    {value : α} (done : read text = .done value rest) : rest.length < text.length := by
  obtain ⟨c, more, same, _, shorter⟩ := bites text value rest done
  rw [same, List.length_cons]
  omega

theorem Bites.steady {first : Char → Bool} (bites : Bites first read)
    (marks : ∀ c, first c = true → isMark c = true) : Steady read := by
  refine ⟨fun text value rest done => (bites.shorter done).le, ?_⟩
  intro text value rest done stuck
  obtain ⟨c, more, same, accepted, _⟩ := bites text value rest done
  have refused := stuck.head c (by rw [same]; rfl)
  rw [marks c accepted] at refused
  cases refused

namespace Steady

theorem pure (value : α) : Steady (Pure.pure value : Reader α) := by
  constructor
  · intro text found rest done
    cases done
    exact Nat.le_refl _
  · intro text found rest done stuck
    cases done
    exact stuck

theorem miss : Steady (Reader.miss : Reader α) := by
  constructor <;> (intro text value rest done; cases done)

theorem stop : Steady (Reader.stop : Reader α) := by
  constructor <;> (intro text value rest done; cases done)

theorem bind {next : α → Reader β} (first : Steady read) (second : ∀ value, Steady (next value)) :
    Steady (read >>= next) := by
  constructor
  · intro text result rest done
    obtain ⟨value, middle, firstDone, secondDone⟩ := bind_eq_done done
    exact ((second value).shorter _ _ _ secondDone).trans (first.shorter _ _ _ firstDone)
  · intro text result rest done stuck
    obtain ⟨value, middle, firstDone, secondDone⟩ := bind_eq_done done
    exact (second value).sinks _ _ _ secondDone (first.sinks _ _ _ firstDone stuck)

theorem commit (steady : Steady read) : Steady (commit read) :=
  ⟨fun _ _ _ done => steady.shorter _ _ _ (commit_eq_done done),
    fun _ _ _ done => steady.sinks _ _ _ (commit_eq_done done)⟩

theorem expecting {what : String} (steady : Steady read) : Steady (expecting what read) :=
  ⟨fun _ _ _ done => steady.shorter _ _ _ (expecting_eq_done done),
    fun _ _ _ done => steady.sinks _ _ _ (expecting_eq_done done)⟩

theorem or_else {second : Reader α} (steady : Steady read) (alsoSteady : Steady second) :
    Steady (read <|> second) := by
  constructor
  · intro text value rest done
    rcases or_else_eq_done done with first | ⟨_, other⟩
    · exact steady.shorter _ _ _ first
    · exact alsoSteady.shorter _ _ _ other
  · intro text value rest done
    rcases or_else_eq_done done with first | ⟨_, other⟩
    · exact steady.sinks _ _ _ first
    · exact alsoSteady.sinks _ _ _ other

theorem optional (steady : Steady read) : Steady (optional read) := by
  constructor
  · intro text found rest done
    rcases optional_eq_done done with ⟨value, _, first⟩ | ⟨_, same, _⟩
    · exact steady.shorter _ _ _ first
    · rw [same]
  · intro text found rest done stuck
    rcases optional_eq_done done with ⟨value, _, first⟩ | ⟨_, same, _⟩
    · exact steady.sinks _ _ _ first stuck
    · exact same ▸ stuck

theorem up_to (steady : Steady read) (limit : Nat) : Steady (upTo read limit) := by
  induction limit with
  | zero =>
      constructor
      · intro text values rest done
        cases done
        exact Nat.le_refl _
      · intro text values rest done stuck
        cases done
        exact stuck
  | succ limit ih =>
      have one {text rest : List Char} {values : List α}
          (done : Reader.upTo read (limit + 1) text = .done values rest) :
          rest = text ∨ ∃ value middle others, read text = .done value middle ∧
            Reader.upTo read limit middle = .done others rest := by
        rw [up_to_succ] at done
        split at done
        · cases done
          exact .inl rfl
        · cases done
        · rename_i value middle first
          split at done
          · rename_i others left second
            cases done
            exact .inr ⟨value, middle, others, first, second⟩
          · cases done
          · cases done
      constructor
      · intro text values rest done
        rcases one done with same | ⟨value, middle, others, first, second⟩
        · rw [same]
        · exact (ih.shorter _ _ _ second).trans (steady.shorter _ _ _ first)
      · intro text values rest done stuck
        rcases one done with same | ⟨value, middle, others, first, second⟩
        · exact same ▸ stuck
        · exact ih.sinks _ _ _ second (steady.sinks _ _ _ first stuck)

theorem many (steady : Steady read) : Steady (many read) :=
  ⟨fun text values rest done => (steady.up_to text.length).shorter text values rest done,
    fun text values rest done => (steady.up_to text.length).sinks text values rest done⟩

theorem separated {separator : Reader β} (steady : Steady read) (between : Steady separator) :
    Steady (separated read separator) :=
  steady.bind fun _ => (many (between.bind fun _ => steady)).bind fun _ => pure _

theorem run {accepts : Char → Bool} (marks : ∀ c, accepts c = true → isMark c = true) :
    Steady (run accepts) := by
  constructor
  · intro text found rest done
    cases done
    exact (List.dropWhile_suffix accepts).length_le
  · intro text found rest done stuck
    cases done
    cases text with
    | nil => exact stuck
    | cons c more =>
        have refused : accepts c = false := by
          cases accepted : accepts c with
          | false => rfl
          | true => rw [← marks c accepted, stuck.head c rfl]
        rwa [List.dropWhile_cons_of_neg (by rw [refused]; exact Bool.false_ne_true)]

theorem not_before (refused : Char → Bool) : Steady (notBefore refused) := by
  have same {text rest : List Char} {value : Unit}
      (done : Reader.notBefore refused text = .done value rest) : rest = text := by
    unfold Reader.notBefore at done
    split at done
    · cases done
      rfl
    · split at done
      · cases done
      · cases done
        rfl
  constructor
  · intro text value rest done
    rw [same done]
  · intro text value rest done stuck
    rwa [same done]

end Steady

namespace Bites

variable {first : Char → Bool}

theorem bind {next : α → Reader β} (bites : Bites first read) (steady : ∀ value, Steady (next value)) :
    Bites first (read >>= next) := by
  intro text result rest done
  obtain ⟨value, middle, firstDone, secondDone⟩ := bind_eq_done done
  obtain ⟨c, more, same, accepted, shorter⟩ := bites text value middle firstDone
  exact ⟨c, more, same, accepted, ((steady value).shorter _ _ _ secondDone).trans shorter⟩

theorem or_else {second : Reader α} (bites : Bites first read) (alsoBites : Bites first second) :
    Bites first (read <|> second) := by
  intro text value rest done
  rcases or_else_eq_done done with first | ⟨_, other⟩
  · exact bites text value rest first
  · exact alsoBites text value rest other

theorem exactly {word : String} {c : Char} (starts : word.toList.head? = some c)
    (accepted : first c = true) : Bites first (exactly word) := by
  intro text value rest done
  obtain ⟨more, same⟩ := List.head?_eq_some_iff.mp starts
  rw [Reader.exactly] at done
  split at done
  · rename_i left found
    cases done
    have whole := behind?_eq_some found
    rw [same, List.cons_append] at whole
    refine ⟨c, more ++ rest, whole, accepted, ?_⟩
    rw [List.length_append]
    omega
  · cases done

theorem keyword {word : String} {c : Char} (starts : word.toList.head? = some c)
    (accepted : first c = true) : Bites first (keyword word) :=
  (exactly starts accepted).bind fun _ => .not_before isWordChar

theorem one : Bites first (one first) := by
  intro text value rest done
  unfold Reader.one at done
  split at done
  · cases done
  · rename_i c more
    split at done
    · rename_i accepted
      cases done
      exact ⟨value, rest, rfl, accepted, Nat.le_refl _⟩
    · cases done

theorem some_run : Bites first (someRun first) := by
  intro text value rest done
  rw [Reader.someRun] at done
  split at done
  · cases done
  · rename_i some
    cases done
    cases text with
    | nil => exact absurd rfl some
    | cons c more =>
        by_cases accepted : first c = true
        · refine ⟨c, more, rfl, accepted, ?_⟩
          rw [List.dropWhile_cons_of_pos accepted]
          exact (List.dropWhile_suffix first).length_le
        · rw [List.takeWhile_cons_of_neg accepted] at some
          exact absurd rfl some

end Bites

end Reader

theorem length_skip_blank_le (text : List Char) : (skipBlank text).length ≤ text.length :=
  (skip_blank_suffix text).length_le

theorem steady_blank : Steady blank := by
  constructor
  · intro text value rest done
    cases done
    exact length_skip_blank_le text
  · intro text value rest done stuck
    cases done
    exact stuck_skip_blank.mpr stuck

theorem is_mark_of_starts_word {c : Char} (starts : startsWord c = true) : isMark c = true :=
  is_mark_of_word_char (is_word_char_of_starts_word starts)

theorem is_mark_of_path_char {c : Char} (accepted : isPathChar c = true) : isMark c = true := by
  rw [isPathChar, Bool.or_eq_true, beq_iff_eq] at accepted
  rcases accepted with word | point
  · exact is_mark_of_word_char word
  · rw [point]
    decide

theorem is_mark_of_digit {c : Char} (digit : Decimal.isDigit c = true) : isMark c = true :=
  is_mark_of_path_char (is_path_char_of_digit digit)

theorem bites_name : Bites startsWord name :=
  Bites.some_run.bind fun _ => (Steady.run fun _ => is_mark_of_word_char).bind fun _ => .pure _

theorem bites_path : Bites startsWord path := by
  refine Bites.some_run.bind fun start => (Steady.run fun _ => is_mark_of_path_char).bind fun rest => ?_
  split
  · exact .miss
  · exact .pure _

-- What a text ends with is a quote, and all before it is read character by character.
theorem string_tail_eq_done {text value rest : List Char} (done : stringTail text = .done value rest) :
    ∃ taken, text = taken ++ '"' :: rest ∧
      ∀ more, stringTail (taken ++ '"' :: more) = .done value more := by
  induction text using stringTail.induct generalizing value with
  | case1 => cases done
  | case2 later =>
      cases done
      exact ⟨[], rfl, fun more => rfl⟩
  | case3 => cases done
  | case4 c later tail left read ih =>
      rw [stringTail, read] at done
      cases done
      obtain ⟨taken, same, again⟩ := ih read
      refine ⟨'\\' :: c :: taken, by rw [same]; rfl, fun more => ?_⟩
      rw [List.cons_append, List.cons_append, stringTail, again]
  | case5 c later left complaint read => rw [stringTail, read] at done; cases done
  | case6 c later left complaint read => rw [stringTail, read] at done; cases done
  | case7 c later noQuote notLast notEscape tail left read ih =>
      rw [stringTail, read] at done
      · cases done
        obtain ⟨taken, same, again⟩ := ih read
        have noBackslash : c ≠ '\\' := by
          intro backslash
          cases later with
          | nil => exact notLast backslash rfl
          | cons d others => exact notEscape d others backslash rfl
        refine ⟨c :: taken, by rw [same]; rfl, fun more => ?_⟩
        exact string_tail_plain noQuote noBackslash (again more)
      · exact noQuote
      · exact notLast
      · exact notEscape
  | case8 c later noQuote notLast notEscape left complaint read =>
      rw [stringTail, read] at done
      · cases done
      · exact noQuote
      · exact notLast
      · exact notEscape
  | case9 c later noQuote notLast notEscape left complaint read =>
      rw [stringTail, read] at done
      · cases done
      · exact noQuote
      · exact notLast
      · exact notEscape

theorem bites_string_literal : Bites (· == '"') stringLiteral := by
  have bites : Bites (· == '"') (exactly "\"") := .exactly rfl rfl
  intro text value rest done
  obtain ⟨_, middle, first, second⟩ := bind_eq_done done
  obtain ⟨tail, left, third, fourth⟩ := bind_eq_done second
  obtain ⟨c, more, same, accepted, shorter⟩ := bites _ _ _ first
  obtain ⟨taken, whole, _⟩ := string_tail_eq_done third
  cases fourth
  refine ⟨c, more, same, accepted, le_trans ?_ shorter⟩
  rw [whole, List.length_append, List.length_cons]
  omega

theorem bites_number : Bites Decimal.isDigit number := by
  have fraction : Bites isPathChar (do exactly "."; someRun Decimal.isDigit : Reader (List Char)) :=
    (Bites.exactly rfl rfl).bind fun _ => Bites.some_run.steady fun _ => is_mark_of_digit
  have bites : Bites Decimal.isDigit numberText := by
    refine Bites.some_run.bind fun whole =>
      (Steady.optional (fraction.steady fun _ => is_mark_of_path_char)).bind fun found => ?_
    cases found with
    | none => exact .pure _
    | some digits => exact .pure _
  intro text value rest done
  rw [number] at done
  split at done
  · rename_i digits middle read
    split at done
    · cases done
      exact bites _ _ _ read
    · cases done
  · cases done
  · cases done

def opensLiteral (c : Char) : Bool := isWordChar c || c == '"'

theorem bites_literal : Bites opensLiteral literal := by
  have word {word : String} {c : Char} (starts : word.toList.head? = some c)
      (first : opensLiteral c = true) (value : Scalar) :
      Bites opensLiteral (do keyword word; return value : Reader Scalar) :=
    (Bites.keyword starts first).bind fun _ => .pure _
  have text : Bites opensLiteral stringLiteral :=
    bites_string_literal.mono fun c quote => by rw [beq_iff_eq.mp quote]; decide
  have digits : Bites opensLiteral number := bites_number.mono fun c digit => by
    simp [opensLiteral, isWordChar, digit]
  refine (text.bind fun _ => .pure _).or_else ?_
  refine (word (c := 't') rfl rfl _).or_else ?_
  refine (word (c := 'f') rfl rfl _).or_else ?_
  refine (word (c := 'n') rfl rfl _).or_else ?_
  exact digits.bind fun _ => .pure _

end Tariff.Script
