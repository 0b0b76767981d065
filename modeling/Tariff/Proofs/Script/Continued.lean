import Tariff.Proofs.Script.Lines
import Tariff.Proofs.Script.Steady

/-! What has been read is read again, with the text that follows behind what is left. Only where all was
blank up to the end, the text that follows is without the blanks in front of it. -/

set_option autoImplicit false

namespace Tariff.Script

open Reader

structure Sequel (further : List Char) : Prop where
  feed : ∃ more, further = '\n' :: more
  opens : skipBlank further = [] ∨
    ∃ word ∈ statementWords, (skipBlank further).takeWhile isWordChar = word.toList

inductive Follows (further : List Char) : List Char → List Char → Prop
  | behind (text : List Char) : Follows further text (text ++ further)
  | atEnd : Follows further [] (skipBlank further)

variable {further : List Char}

theorem Follows.nonempty {c : Char} {more longer : List Char}
    (follows : Follows further (c :: more) longer) : longer = c :: (more ++ further) := by
  cases follows
  rfl

theorem Follows.length_lt {text rest longer left : List Char}
    (follows : Follows further text longer) (after : Follows further rest left)
    (shorter : rest.length < text.length) : left.length < longer.length := by
  cases follows with
  | atEnd => exact absurd shorter (Nat.not_lt_zero _)
  | behind =>
      cases after with
      | behind =>
          rw [List.length_append, List.length_append]
          omega
      | atEnd =>
          have blanks := length_skip_blank_le further
          rw [List.length_nil] at shorter
          rw [List.length_append]
          omega

namespace Sequel

section

variable (sequel : Sequel further)

include sequel

theorem ends {accepts : Char → Bool} (refused : accepts '\n' = false) : Ends accepts further := by
  obtain ⟨more, same⟩ := sequel.feed
  rw [same]
  intro c first
  cases first
  exact refused

theorem take_while_append {accepts : Char → Bool} (refused : accepts '\n' = false)
    (text : List Char) : (text ++ further).takeWhile accepts = text.takeWhile accepts := by
  obtain ⟨more, same⟩ := sequel.feed
  induction text with
  | nil => rw [List.nil_append, same, List.takeWhile_cons_of_neg (by simp [refused])]; rfl
  | cons c rest ih => simp [List.takeWhile_cons, ih]

theorem drop_while_append {accepts : Char → Bool} (refused : accepts '\n' = false)
    (text : List Char) :
    (text ++ further).dropWhile accepts = text.dropWhile accepts ++ further := by
  obtain ⟨more, same⟩ := sequel.feed
  induction text with
  | nil => rw [List.nil_append, same, List.dropWhile_cons_of_neg (by simp [refused])]; rfl
  | cons c rest ih =>
      rw [List.cons_append, List.dropWhile_cons, List.dropWhile_cons, ih]
      split
      · rfl
      · rfl

theorem opening : ∀ c ∈ (skipBlank further).head?, c ∈ ['p', 'c', 'r'] := by
  intro c first
  rcases sequel.opens with none | ⟨word, member, same⟩
  · rw [none] at first
    cases first
  · obtain ⟨more, whole⟩ := List.head?_eq_some_iff.mp first
    have starts : ∀ word ∈ statementWords, ∃ d ∈ ['p', 'c', 'r'], word.toList.head? = some d := by
      decide
    obtain ⟨d, isOne, head⟩ := starts word member
    rw [← same, whole, List.takeWhile_cons] at head
    split at head
    · cases head
      exact isOne
    · cases head

theorem opening_ne {c : Char} (apart : c ∉ ['p', 'c', 'r']) : (skipBlank further).head? ≠ some c :=
  fun same => apart (sequel.opening c same)

theorem opening_word {word : String} (nonempty : word ≠ "") (apart : word ∉ statementWords) :
    (skipBlank further).takeWhile isWordChar ≠ word.toList := by
  intro same
  rcases sequel.opens with none | ⟨other, member, found⟩
  · rw [none] at same
    exact nonempty (String.toList_eq_nil_iff.mp same.symm)
  · exact apart (String.toList_inj.mp (same.symm.trans found) ▸ member)

end

mutual

theorem skip_blank_append (sequel : Sequel further) (text : List Char) :
    Follows further (skipBlank text) (skipBlank (text ++ further)) ∨
      Stuck text ∧ skipBlank (text ++ further) = skipBlank further := by
  cases text with
  | nil => exact .inl .atEnd
  | cons c rest =>
      by_cases comment : c = '#'
      · have whole : skipBlank (c :: rest) = skipComment (c :: rest) rest := by
          rw [skipBlank, if_pos comment]
        rw [Stuck, whole, List.cons_append, skipBlank, if_pos comment, ← List.cons_append]
        exact skip_comment_append sequel (c :: rest) rest (by rw [comment]; rfl)
      · by_cases space : isSpace c = true
        · have whole (rest : List Char) : skipBlank (c :: rest) = skipBlank rest := by
            rw [skipBlank, if_neg comment, if_pos space]
          rw [Stuck, List.cons_append, whole, whole]
          exact skip_blank_append sequel rest
        · have mark : isMark c = true := by
            simp [isMark, comment, space]
          rw [List.cons_append, skip_blank_mark mark, skip_blank_mark mark, ← List.cons_append]
          exact .inl (.behind _)

theorem skip_comment_append (sequel : Sequel further) (start text : List Char)
    (comment : start.head? = some '#') :
    Follows further (skipComment start text) (skipComment (start ++ further) (text ++ further)) ∨
      (skipComment start text).head? = some '#' ∧
        skipComment (start ++ further) (text ++ further) = skipBlank further := by
  obtain ⟨more, feed⟩ := sequel.feed
  cases text with
  | nil =>
      left
      have whole : skipComment (start ++ further) ([] ++ further) = skipBlank further := by
        rw [List.nil_append, feed, skipComment, ← feed, feed, skip_blank_feed]
      rw [whole, skipComment]
      exact .atEnd
  | cons c rest =>
      by_cases newline : c = '\n'
      · subst newline
        rw [List.cons_append, skipComment, skipComment]
        exact skip_blank_append sequel rest
      · by_cases return_ : c = '\r'
        · subst return_
          cases rest with
          | nil =>
              right
              rw [List.cons_append, List.nil_append, feed, skipComment, skipComment, skip_blank_feed]
              · exact ⟨comment, rfl⟩
              · intro more same
                cases same
          | cons d later =>
              by_cases pair : d = '\n'
              · subst pair
                rw [List.cons_append, List.cons_append, skipComment, skipComment]
                exact skip_blank_append sequel later
              · have whole (start later : List Char) :
                    skipComment start ('\r' :: d :: later) = start := by
                  rw [skipComment]
                  intro more same
                  exact pair (List.cons.inj same).1
                rw [List.cons_append, List.cons_append, whole, whole]
                exact .inl (.behind start)
        · have whole (start rest : List Char) :
              skipComment start (c :: rest) = skipComment start rest := by
            rw [skipComment]
            · exact newline
            · intro more same
              exact absurd same return_
            · exact return_
          rw [List.cons_append, whole, whole]
          exact skip_comment_append sequel start rest comment

end

end Sequel

section

variable {α β : Type}

-- What `read` reads of a text below the limit, `other` reads where more text follows, if what is left
-- is of the kind.
structure CarriesBefore (further : List Char) (kind : List Char → Prop) (limit : Nat)
    (read other : Reader α) : Prop where
  steady : Steady read
  keeps : ∀ text longer value rest, text.length < limit → Follows further text longer →
    read text = .done value rest → kind rest →
    Stuck rest ∨ ∃ left, other longer = .done value left ∧ Follows further rest left

abbrev Carries (further : List Char) (limit : Nat) (read other : Reader α) : Prop :=
  CarriesBefore further (fun _ => True) limit read other

def Sure (further : List Char) (read other : Reader α) : Prop :=
  ∀ text longer, Follows further text longer → read.Misses text → other.Misses longer

def NeverMisses (read : Reader α) : Prop := ∀ text, ¬read.Misses text

structure Takes (further : List Char) (first : Char → Bool) (limit : Nat) (read other : Reader α) :
    Prop extends CarriesBefore further (fun _ => True) limit read other where
  bites : Bites first read

variable {kind : List Char → Prop} {limit : Nat} {read other : Reader α} {first : Char → Bool}

namespace NeverMisses

theorem pure (value : α) : NeverMisses (Pure.pure value : Reader α) := by
  rintro text ⟨left, complaint, missed⟩
  cases missed

theorem blank : NeverMisses blank := by
  rintro text ⟨left, complaint, missed⟩
  cases missed

theorem bind {next : α → Reader β} (first : NeverMisses read)
    (second : ∀ value, NeverMisses (next value)) : NeverMisses (read >>= next) := by
  rintro text ⟨left, complaint, missed⟩
  rw [bind_apply] at missed
  cases done : read text with
  | done value middle =>
      rw [done] at missed
      exact second value middle ⟨left, complaint, missed⟩
  | missed left complaint => exact first text ⟨left, complaint, done⟩
  | stopped left complaint => rw [done] at missed; cases missed

theorem commit : NeverMisses (commit read) := by
  rintro text ⟨left, complaint, missed⟩
  rw [Reader.commit] at missed
  split at missed
  · cases missed
  · rename_i notMissed
    exact notMissed left complaint missed

theorem expecting {what : String} (never : NeverMisses read) : NeverMisses (expecting what read) := by
  rintro text ⟨left, complaint, missed⟩
  rw [Reader.expecting] at missed
  split at missed
  · cases missed
  · rename_i notMissed
    exact never text ⟨_, _, notMissed⟩
  · cases missed

theorem optional : NeverMisses (optional read) := by
  rintro text ⟨left, complaint, missed⟩
  rw [Reader.optional] at missed
  split at missed <;> cases missed

theorem many : NeverMisses (many read) := by
  have all (limit : Nat) : NeverMisses (upTo read limit) := by
    induction limit with
    | zero =>
        rintro text ⟨left, complaint, missed⟩
        cases missed
    | succ limit ih =>
        rintro text ⟨left, complaint, missed⟩
        rw [up_to_succ] at missed
        split at missed
        · cases missed
        · cases missed
        · rename_i value middle done
          split at missed
          · cases missed
          · rename_i found
            exact ih middle ⟨_, _, found⟩
          · cases missed
  exact fun text => all text.length text

end NeverMisses

theorem Reader.Misses.of_bind {next : α → Reader β} {text : List Char}
    (missed : (read >>= next).Misses text) (never : ∀ value, NeverMisses (next value)) :
    read.Misses text := by
  obtain ⟨left, complaint, missed⟩ := missed
  rw [bind_apply] at missed
  cases done : read text with
  | done value middle =>
      rw [done] at missed
      exact absurd ⟨left, complaint, missed⟩ (never value middle)
  | missed left complaint => exact ⟨left, complaint, done⟩
  | stopped left complaint => rw [done] at missed; cases missed

namespace CarriesBefore

theorem mono (carries : CarriesBefore further kind limit read other) {fewer : Nat}
    (le : fewer ≤ limit) : CarriesBefore further kind fewer read other :=
  ⟨carries.steady, fun text longer value rest bound =>
    carries.keeps text longer value rest (Nat.lt_of_lt_of_le bound le)⟩

theorem commit (carries : CarriesBefore further kind limit read other) :
    CarriesBefore further kind limit (commit read) (commit other) := by
  refine ⟨carries.steady.commit, fun text longer value rest bound follows done isKind => ?_⟩
  rcases carries.keeps _ _ _ _ bound follows (commit_eq_done done) isKind with
    stuck | ⟨left, again, after⟩
  · exact .inl stuck
  · exact .inr ⟨left, commit_done again, after⟩

theorem expecting {what : String} (carries : CarriesBefore further kind limit read other) :
    CarriesBefore further kind limit (expecting what read) (expecting what other) := by
  refine ⟨carries.steady.expecting, fun text longer value rest bound follows done isKind => ?_⟩
  rcases carries.keeps _ _ _ _ bound follows (expecting_eq_done done) isKind with
    stuck | ⟨left, again, after⟩
  · exact .inl stuck
  · exact .inr ⟨left, expecting_done again, after⟩

theorem bind_needing {next nextOther : α → Reader β}
    (carries : CarriesBefore further kind limit read other)
    (second : ∀ value, Carries further limit (next value) (nextOther value))
    (needs : ∀ value text result rest, next value text = .done result rest → kind text) :
    Carries further limit (read >>= next) (other >>= nextOther) := by
  refine ⟨carries.steady.bind fun value => (second value).steady,
    fun text longer result rest bound follows done _ => ?_⟩
  obtain ⟨value, middle, firstDone, secondDone⟩ := bind_eq_done done
  have shorter := carries.steady.shorter _ _ _ firstDone
  rcases carries.keeps _ _ _ _ bound follows firstDone (needs _ _ _ _ secondDone) with
    stuck | ⟨left, again, after⟩
  · exact .inl ((second value).steady.sinks _ _ _ secondDone stuck)
  · rcases (second value).keeps _ _ _ _ (Nat.lt_of_le_of_lt shorter bound) after secondDone trivial with
      stuck | ⟨last, further, afterLast⟩
    · exact .inl stuck
    · exact .inr ⟨last, (bind_done again).trans further, afterLast⟩

theorem pure (value : α) : Carries further limit (Pure.pure value) (Pure.pure value) := by
  refine ⟨.pure value, fun text longer result rest _ follows done _ => ?_⟩
  cases done
  exact .inr ⟨longer, rfl, follows⟩

theorem stop : Carries further limit (Reader.stop : Reader α) Reader.stop :=
  ⟨.stop, fun _ _ _ _ _ _ done _ => by cases done⟩

theorem bind {next nextOther : α → Reader β} (carries : Carries further limit read other)
    (second : ∀ value, Carries further limit (next value) (nextOther value)) :
    Carries further limit (read >>= next) (other >>= nextOther) :=
  bind_needing carries second fun _ _ _ _ _ => trivial

theorem or_else_apart {second secondOther : Reader α} (carries : Carries further limit read other)
    (alsoCarries : Carries further limit second secondOther)
    (misses : ∀ text longer value rest, Follows further text longer → read.Misses text →
      second text = .done value rest → other.Misses longer) :
    Carries further limit (read <|> second) (other <|> secondOther) := by
  refine ⟨carries.steady.or_else alsoCarries.steady,
    fun text longer value rest bound follows done _ => ?_⟩
  rcases or_else_eq_done done with firstDone | ⟨missed, secondDone⟩
  · rcases carries.keeps _ _ _ _ bound follows firstDone trivial with stuck | ⟨left, again, after⟩
    · exact .inl stuck
    · exact .inr ⟨left, or_else_done again, after⟩
  · rcases alsoCarries.keeps _ _ _ _ bound follows secondDone trivial with
      stuck | ⟨left, again, after⟩
    · exact .inl stuck
    · exact .inr ⟨left, (or_else_misses (misses _ _ _ _ follows missed secondDone)).trans again, after⟩

theorem or_else {second secondOther : Reader α} (carries : Carries further limit read other)
    (sure : Sure further read other) (alsoCarries : Carries further limit second secondOther) :
    Carries further limit (read <|> second) (other <|> secondOther) :=
  carries.or_else_apart alsoCarries fun text longer _ _ follows missed _ => sure text longer follows missed

theorem optional (carries : Carries further limit read other) (sure : Sure further read other) :
    Carries further limit (optional read) (optional other) := by
  refine ⟨carries.steady.optional, fun text longer found rest bound follows done _ => ?_⟩
  rcases optional_eq_done done with ⟨value, same, firstDone⟩ | ⟨same, unread, missed⟩
  · subst same
    rcases carries.keeps _ _ _ _ bound follows firstDone trivial with stuck | ⟨left, again, after⟩
    · exact .inl stuck
    · exact .inr ⟨left, optional_done again, after⟩
  · subst same
    rw [unread]
    exact .inr ⟨longer, optional_misses (sure text longer follows missed), follows⟩

end CarriesBefore

theorem repeats_of_many {values : List α} {text rest : List Char}
    (shorter : ∀ text value rest, read text = .done value rest → rest.length < text.length)
    (ends : read.Misses []) (done : many read text = .done values rest) :
    Repeats read text values rest := by
  have all (limit : Nat) : ∀ text values rest, text.length ≤ limit →
      upTo read limit text = .done values rest → Repeats read text values rest := by
    induction limit with
    | zero =>
        intro text values rest bound done
        cases done
        rw [List.length_eq_zero_iff.mp (Nat.le_zero.mp bound)]
        exact .last ends
    | succ limit ih =>
        intro text values rest bound done
        rw [up_to_succ] at done
        split at done
        · rename_i left complaint missed
          cases done
          exact .last ⟨left, complaint, missed⟩
        · cases done
        · rename_i value middle first
          have less := shorter _ _ _ first
          split at done
          · rename_i others last second
            cases done
            exact .next first less (ih _ _ _ (by omega) second)
          · cases done
          · cases done
  exact all text.length text values rest (Nat.le_refl _) done

theorem Reader.Repeats.sinks {values : List α} {text rest : List Char} (steady : Steady read)
    (repeats : Repeats read text values rest) (stuck : Stuck text) : Stuck rest := by
  induction repeats with
  | last misses => exact stuck
  | next done _ _ ih => exact ih (steady.sinks _ _ _ done stuck)

theorem Reader.Repeats.again {values : List α} {text rest longer : List Char}
    (carries : Carries further limit read other)
    (last : ∀ left, Follows further rest left → read.Misses rest → other.Misses left)
    (repeats : Repeats read text values rest) (bound : text.length < limit)
    (follows : Follows further text longer) :
    Stuck rest ∨ ∃ left, Repeats other longer values left ∧ Follows further rest left := by
  induction repeats generalizing longer with
  | last misses => exact .inr ⟨longer, .last (last longer follows misses), follows⟩
  | next done shorter more ih =>
      rcases carries.keeps _ _ _ _ bound follows done trivial with stuck | ⟨middle, again, after⟩
      · exact .inl (more.sinks carries.steady stuck)
      · rcases ih last (by omega) after with stuck | ⟨left, repeats, afterAll⟩
        · exact .inl stuck
        · exact .inr ⟨left, .next again (follows.length_lt after shorter) repeats, afterAll⟩

theorem CarriesBefore.many (carries : Carries further limit read other) (sure : Sure further read other)
    (shorter : ∀ text value rest, read text = .done value rest → rest.length < text.length)
    (ends : read.Misses []) : Carries further limit (many read) (many other) := by
  refine ⟨carries.steady.many, fun text longer values rest bound follows done _ => ?_⟩
  have repeats := repeats_of_many shorter ends done
  rcases repeats.again carries (fun left => sure rest left) bound follows with
    stuck | ⟨left, again, after⟩
  · exact .inl stuck
  · exact .inr ⟨left, many_repeats again, after⟩

namespace Sure

theorem ends (sure : Sure further read other) (misses : read.Misses []) :
    other.Misses (skipBlank further) := sure [] _ .atEnd misses

theorem bind {next nextOther : α → Reader β} (sure : Sure further read other)
    (never : ∀ value, NeverMisses (next value)) :
    Sure further (read >>= next) (other >>= nextOther) :=
  fun text longer follows missed => bind_misses (sure text longer follows (missed.of_bind never))

theorem blank_then (sequel : Sequel further) {next nextOther : Unit → Reader β}
    (sure : Sure further (next ()) (nextOther ())) (misses : (next ()).Misses []) :
    Sure further (blank >>= next) (blank >>= nextOther) := by
  intro text longer follows missed
  apply blank_then_misses
  have missedThere : (next ()).Misses (skipBlank text) := missed
  cases follows with
  | atEnd =>
      rw [skip_blank_again]
      exact sure.ends misses
  | behind =>
      rcases sequel.skip_blank_append text with after | ⟨_, same⟩
      · exact sure _ _ after missedThere
      · rw [same]
        exact sure.ends misses

theorem or_else {second secondOther : Reader α} (sure : Sure further read other)
    (alsoSure : Sure further second secondOther) :
    Sure further (read <|> second) (other <|> secondOther) := by
  intro text longer follows missed
  have both := or_else_misses_each missed
  exact or_else_both_miss (sure text longer follows both.1) (alsoSure text longer follows both.2)

end Sure

namespace Takes

theorem bind {next nextOther : α → Reader β} (takes : Takes further first (limit + 1) read other)
    (second : ∀ value, Carries further limit (next value) (nextOther value)) :
    Takes further first (limit + 1) (read >>= next) (other >>= nextOther) := by
  refine ⟨⟨takes.steady.bind fun value => (second value).steady,
    fun text longer result rest bound follows done _ => ?_⟩,
    takes.bites.bind fun value => (second value).steady⟩
  obtain ⟨value, middle, firstDone, secondDone⟩ := bind_eq_done done
  have shorter := takes.bites.shorter firstDone
  rcases takes.keeps _ _ _ _ bound follows firstDone trivial with stuck | ⟨left, again, after⟩
  · exact .inl ((second value).steady.sinks _ _ _ secondDone stuck)
  · rcases (second value).keeps _ _ _ _ (by omega) after secondDone trivial with
      stuck | ⟨last, more, afterLast⟩
    · exact .inl stuck
    · exact .inr ⟨last, (bind_done again).trans more, afterLast⟩

theorem mono (takes : Takes further first limit read other) {wider : Char → Bool}
    (within : ∀ c, first c = true → wider c = true) : Takes further wider limit read other :=
  ⟨takes.toCarriesBefore, takes.bites.mono within⟩

theorem or_else {second secondOther : Reader α} (takes : Takes further first limit read other)
    (sure : Sure further read other) (alsoTakes : Takes further first limit second secondOther) :
    Takes further first limit (read <|> second) (other <|> secondOther) :=
  ⟨CarriesBefore.or_else takes.toCarriesBefore sure alsoTakes.toCarriesBefore,
    takes.bites.or_else alsoTakes.bites⟩

end Takes

structure Exact (further : List Char) (first : Char → Bool) (read : Reader α) : Prop where
  bites : Bites first read
  marks : ∀ c, first c = true → isMark c = true
  keeps : ∀ text value rest, read text = .done value rest →
    read (text ++ further) = .done value (rest ++ further)

theorem Exact.again (exact : Exact further first read) {text longer rest : List Char} {value : α}
    (follows : Follows further text longer) (done : read text = .done value rest) :
    read longer = .done value (rest ++ further) := by
  cases follows with
  | behind => exact exact.keeps text value rest done
  | atEnd =>
      obtain ⟨c, more, same, _⟩ := exact.bites [] value rest done
      cases same

theorem Exact.takes (exact : Exact further first read) : Takes further first limit read read := by
  refine ⟨⟨exact.bites.steady exact.marks, fun text longer value rest _ follows done _ => ?_⟩,
    exact.bites⟩
  exact .inr ⟨rest ++ further, exact.again follows done, .behind rest⟩

theorem Exact.carries (exact : Exact further first read) : Carries further limit read read :=
  exact.takes.toCarriesBefore

theorem Sure.exact_then {next nextOther : α → Reader β} (exact : Exact further first read)
    (sure : Sure further read read) (alsoSure : ∀ value, Sure further (next value) (nextOther value)) :
    Sure further (read >>= next) (read >>= nextOther) := by
  rintro text longer follows ⟨left, complaint, missed⟩
  rw [bind_apply] at missed
  cases done : read text with
  | done value middle =>
      rw [done] at missed
      exact bind_then_misses (exact.again follows done)
        (alsoSure value middle _ (.behind middle) ⟨left, complaint, missed⟩)
  | missed left complaint => exact bind_misses (sure text longer follows ⟨left, complaint, done⟩)
  | stopped left complaint => rw [done] at missed; cases missed

end

end Tariff.Script
