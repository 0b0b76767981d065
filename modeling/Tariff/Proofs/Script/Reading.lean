import Tariff.Script.Reading

set_option autoImplicit false

namespace Tariff.Script

def Reading.andThen {α β : Type} (reading : Reading α) (next : α → Reader β) : Reading β :=
  match reading with
  | .done value rest => next value rest
  | .missed rest complaint => .missed rest complaint
  | .stopped rest complaint => .stopped rest complaint

namespace Reader

variable {α β : Type} {read : Reader α} {text rest : List Char} {value : α}

def Misses (read : Reader α) (text : List Char) : Prop :=
  ∃ left complaint, read text = .missed left complaint

theorem bind_apply (next : α → Reader β) (text : List Char) :
    (read >>= next) text = (read text).andThen next := rfl

theorem bind_done {next : α → Reader β} (done : read text = .done value rest) :
    (read >>= next) text = next value rest := by
  rw [bind_apply, done]
  rfl

theorem bind_eq_done {next : α → Reader β} {result : β}
    (done : (read >>= next) text = .done result rest) :
    ∃ value middle, read text = .done value middle ∧ next value middle = .done result rest := by
  rw [bind_apply] at done
  cases first : read text with
  | done value middle => exact ⟨value, middle, rfl, by rw [first] at done; exact done⟩
  | missed left complaint => rw [first] at done; cases done
  | stopped left complaint => rw [first] at done; cases done

theorem bind_same {next : α → Reader β} {other : List Char} (same : read text = read other) :
    (read >>= next) text = (read >>= next) other := by
  rw [bind_apply, bind_apply, same]

theorem bind_misses {next : α → Reader β} (misses : read.Misses text) :
    (read >>= next).Misses text := by
  obtain ⟨left, complaint, missed⟩ := misses
  refine ⟨left, complaint, ?_⟩
  rw [bind_apply, missed]
  rfl

theorem bind_then_misses {next : α → Reader β} (done : read text = .done value rest)
    (misses : (next value).Misses rest) : (read >>= next).Misses text := by
  obtain ⟨left, complaint, missed⟩ := misses
  exact ⟨left, complaint, (bind_done done).trans missed⟩

theorem commit_done (done : read text = .done value rest) :
    commit read text = .done value rest := by
  rw [commit, done]

theorem expecting_done {what : String} (done : read text = .done value rest) :
    expecting what read text = .done value rest := by
  rw [expecting, done]

theorem expecting_misses {what : String} (misses : read.Misses text) :
    (expecting what read).Misses text := by
  obtain ⟨left, complaint, missed⟩ := misses
  exact ⟨left, complaint.add what, by rw [expecting, missed]⟩

theorem or_else_done {second : Reader α} (done : read text = .done value rest) :
    (read <|> second) text = .done value rest := by
  change orElse read second text = _
  rw [orElse, done]

theorem or_else_misses {second : Reader α} (misses : read.Misses text) :
    (read <|> second) text = second text := by
  obtain ⟨left, complaint, missed⟩ := misses
  change orElse read second text = _
  rw [orElse, missed]

theorem or_else_both_miss {second : Reader α} (misses : read.Misses text)
    (alsoMisses : second.Misses text) : (read <|> second).Misses text := by
  obtain ⟨left, complaint, missed⟩ := alsoMisses
  exact ⟨left, complaint, (or_else_misses misses).trans missed⟩

theorem optional_done (done : read text = .done value rest) :
    optional read text = .done (some value) rest := by
  rw [optional, done]

theorem optional_misses (misses : read.Misses text) : optional read text = .done .none text := by
  obtain ⟨left, complaint, missed⟩ := misses
  rw [optional, missed]

inductive Repeats (read : Reader α) : List Char → List α → List Char → Prop
  | last {text : List Char} (misses : read.Misses text) : Repeats read text [] text
  | next {text middle rest : List Char} {value : α} {values : List α}
      (done : read text = .done value middle) (shorter : middle.length < text.length)
      (more : Repeats read middle values rest) : Repeats read text (value :: values) rest

theorem up_to_succ (read : Reader α) (limit : Nat) (text : List Char) :
    upTo read (limit + 1) text =
      match read text with
      | .missed _ _ => .done [] text
      | .stopped rest complaint => .stopped rest complaint
      | .done value rest =>
          match upTo read limit rest with
          | .done values rest => .done (value :: values) rest
          | .missed rest complaint => .missed rest complaint
          | .stopped rest complaint => .stopped rest complaint := rfl

theorem up_to_repeats {values : List α} (repeats : Repeats read text values rest) {limit : Nat}
    (enough : text.length ≤ limit) : upTo read limit text = .done values rest := by
  induction repeats generalizing limit with
  | @last text misses =>
      cases limit with
      | zero => rfl
      | succ limit =>
          obtain ⟨left, complaint, missed⟩ := misses
          rw [up_to_succ, missed]
  | @next text middle rest value values done shorter _ ih =>
      cases limit with
      | zero => omega
      | succ limit =>
          have later := ih (show middle.length ≤ limit by omega)
          rw [up_to_succ, done]
          dsimp only
          rw [later]

theorem many_repeats {values : List α} (repeats : Repeats read text values rest) :
    many read text = .done values rest := up_to_repeats repeats (Nat.le_refl _)

theorem many_misses (misses : read.Misses text) : many read text = .done [] text :=
  many_repeats (.last misses)

theorem separated_repeats {separator : Reader β} {middle : List Char} {values : List α}
    (first : read text = .done value middle)
    (repeats : Repeats (do let _ ← separator; read) middle values rest) :
    separated read separator text = .done (value :: values) rest := by
  rw [separated, bind_done first, bind_done (many_repeats repeats)]
  rfl

theorem separated_or_none_misses {separator : Reader β} (misses : read.Misses text) :
    separatedOrNone read separator text = .done [] text := by
  have first : (separated read separator).Misses text := bind_misses misses
  exact or_else_misses first

theorem take_while_whole {accepts : Char → Bool} {taken : List Char}
    (all : taken.all accepts = true) (ends : ∀ c ∈ rest.head?, accepts c = false) :
    (taken ++ rest).takeWhile accepts = taken := by
  rw [List.takeWhile_append_of_pos (List.all_eq_true.mp all)]
  cases rest with
  | nil => simp
  | cons c later => simp [ends c rfl]

theorem run_append {accepts : Char → Bool} {taken : List Char} (all : taken.all accepts = true)
    (ends : ∀ c ∈ rest.head?, accepts c = false) :
    run accepts (taken ++ rest) = .done taken rest := by
  rw [run, take_while_whole all ends, List.dropWhile_append_of_pos (List.all_eq_true.mp all)]
  cases rest with
  | nil => simp
  | cons c later => simp [ends c rfl]

theorem some_run_append {accepts : Char → Bool} {taken : List Char} (nonempty : taken ≠ [])
    (all : taken.all accepts = true) (ends : ∀ c ∈ rest.head?, accepts c = false) :
    someRun accepts (taken ++ rest) = .done taken rest := by
  have both := run_append all ends
  unfold run at both
  injection both with found left
  rw [someRun, found, left]
  cases taken with
  | nil => exact absurd rfl nonempty
  | cons c later => rfl

theorem some_run_misses {accepts : Char → Bool} (ends : ∀ c ∈ text.head?, accepts c = false) :
    (someRun accepts).Misses text := by
  have none : text.takeWhile accepts = [] := by
    cases text with
    | nil => rfl
    | cons c later => simp [ends c rfl]
  exact ⟨text, .none, by rw [someRun, none]⟩

theorem behind?_append (word rest : List Char) : behind? word (word ++ rest) = some rest := by
  induction word with
  | nil => rfl
  | cons c later ih => simp [behind?, ih]

theorem behind?_eq_some {word : List Char} (found : behind? word text = some rest) :
    text = word ++ rest := by
  induction word generalizing text with
  | nil => simpa [behind?] using found
  | cons c later ih =>
      cases text with
      | nil => simp [behind?] at found
      | cons d text =>
          by_cases same : d = c
          · simp only [behind?, if_pos same] at found
            rw [same, ih found, List.cons_append]
          · simp [behind?, same] at found

theorem exactly_append (word : String) (rest : List Char) :
    exactly word (word.toList ++ rest) = .done () rest := by
  rw [exactly, behind?_append]

theorem exactly_misses {word : String} (different : behind? word.toList text = none) :
    (exactly word).Misses text := ⟨text, .none, by rw [exactly, different]⟩

def Yields (good : α → Prop) (read : Reader α) : Prop :=
  ∀ text value rest, read text = .done value rest → good value

namespace Yields

variable {good : α → Prop} {fine : β → Prop}

theorem pure (isGood : good value) : Yields good (Pure.pure value : Reader α) := by
  intro text other rest done
  cases done
  exact isGood

theorem trivial (read : Reader α) : Yields (fun _ => True) read := fun _ _ _ _ => True.intro

theorem bind {next : α → Reader β} (first : Yields good read)
    (second : ∀ value, good value → Yields fine (next value)) : Yields fine (read >>= next) := by
  intro text result rest done
  obtain ⟨value, middle, firstDone, secondDone⟩ := bind_eq_done done
  exact second value (first text value middle firstDone) middle result rest secondDone

-- The first value has no part in what is said of the second.
theorem after {next : α → Reader β} (second : ∀ value, Yields fine (next value)) :
    Yields fine (read >>= next) := (trivial read).bind fun value _ => second value

theorem commit (yields : Yields good read) : Yields good (commit read) := by
  intro text value rest done
  rw [Reader.commit] at done
  split at done
  · cases done
  · exact yields text value rest done

theorem expecting {what : String} (yields : Yields good read) :
    Yields good (expecting what read) := by
  intro text value rest done
  rw [Reader.expecting] at done
  split at done
  · rename_i first
    cases done
    exact yields text _ _ first
  · cases done
  · cases done

theorem or_else {second : Reader α} (yields : Yields good read) (alsoYields : Yields good second) :
    Yields good (read <|> second) := by
  intro text value rest done
  change Reader.orElse read second text = _ at done
  rw [Reader.orElse] at done
  split at done
  · exact alsoYields text value rest done
  · exact yields text value rest done

theorem optional (yields : Yields good read) :
    Yields (fun found => ∀ value ∈ found, good value) (optional read) := by
  intro text found rest done
  rw [Reader.optional] at done
  split at done
  · rename_i first
    cases done
    intro other same
    cases same
    exact yields text _ _ first
  · cases done
    intro other same
    cases same
  · cases done

theorem up_to (yields : Yields good read) (limit : Nat) :
    Yields (fun values => ∀ value ∈ values, good value) (upTo read limit) := by
  induction limit with
  | zero =>
      intro text values rest done
      cases done
      simp
  | succ limit ih =>
      intro text values rest done
      rw [up_to_succ] at done
      split at done
      · cases done
        simp
      · cases done
      · rename_i value middle first
        split at done
        · rename_i others left second
          cases done
          exact List.forall_mem_cons.mpr
            ⟨yields text value middle first, ih middle others rest second⟩
        · cases done
        · cases done

theorem many (yields : Yields good read) :
    Yields (fun values => ∀ value ∈ values, good value) (many read) :=
  fun text values rest done => yields.up_to text.length text values rest done

theorem separated {separator : Reader β} (yields : Yields good read) :
    Yields (fun values => values ≠ [] ∧ ∀ value ∈ values, good value)
      (separated read separator) := by
  refine bind yields fun first isGood => bind (many (after fun _ => yields)) fun more areGood => ?_
  exact pure ⟨List.cons_ne_nil _ _, List.forall_mem_cons.mpr ⟨isGood, areGood⟩⟩

theorem separated_or_none {separator : Reader β} (yields : Yields good read) :
    Yields (fun values => ∀ value ∈ values, good value) (separatedOrNone read separator) := by
  refine or_else ?_ (pure (by simp))
  intro text values rest done
  exact (yields.separated text values rest done).2

theorem run {accepts : Char → Bool} : Yields (fun found => found.all accepts = true) (run accepts) := by
  intro text found rest done
  cases done
  exact List.all_takeWhile

theorem some_run {accepts : Char → Bool} :
    Yields (fun found => found ≠ [] ∧ found.all accepts = true) (someRun accepts) := by
  intro text found rest done
  rw [Reader.someRun] at done
  split at done
  · cases done
  · rename_i nonempty
    cases done
    exact ⟨nonempty, List.all_takeWhile⟩

end Yields

end Reader

end Tariff.Script
