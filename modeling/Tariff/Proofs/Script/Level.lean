import Tariff.Formula.Printer
import Tariff.Script.Formula
import Tariff.Proofs.Script.Token

/-! What a level has read is what the next looser one reads, unless the text goes on with an operator of
that level. `Stops` says that it does not. -/

set_option autoImplicit false

namespace Tariff.Script

open Reader

variable {nested : Reader Formula} {text rest more : List Char} {value : Formula}
variable {marks : List Char} {words : List String}

structure Stops (marks : List Char) (words : List String) (rest : List Char) : Prop where
  ends : Ends isPathChar rest
  noMark : ∀ c ∈ marks, (skipBlank rest).head? ≠ some c
  noWord : ∀ word ∈ words, (skipBlank rest).takeWhile isWordChar ≠ word.toList

-- The marks and keywords that an operand goes on with, then a product of it, and so on.
def operandMarks : List Char := ['(', '?']
def productMarks : List Char := ['*', '/', '%'] ++ operandMarks
def sumMarks : List Char := ['+', '-'] ++ productMarks
def comparisonMarks : List Char := ['=', '!', '<', '>'] ++ sumMarks
def comparisonWords : List String := ["in"]
def conjunctionWords : List String := ["and", "AND"] ++ comparisonWords
def disjunctionWords : List String := ["or", "OR"] ++ conjunctionWords

namespace Stops

theorem mono (stops : Stops marks words rest) {fewerMarks : List Char} {fewerWords : List String}
    (marksIn : fewerMarks ⊆ marks) (wordsIn : fewerWords ⊆ words) :
    Stops fewerMarks fewerWords rest :=
  ⟨stops.ends, fun c member => stops.noMark c (marksIn member),
    fun word member => stops.noWord word (wordsIn member)⟩

-- What stops a level stops the next tighter one.
theorem operand (stops : Stops productMarks words rest) : Stops operandMarks words rest :=
  stops.mono (List.subset_append_right _ _) (List.Subset.refl _)

theorem product (stops : Stops sumMarks words rest) : Stops productMarks words rest :=
  stops.mono (List.subset_append_right _ _) (List.Subset.refl _)

theorem sum (stops : Stops comparisonMarks words rest) : Stops sumMarks [] rest :=
  stops.mono (List.subset_append_right _ _) (List.nil_subset _)

theorem comparison (stops : Stops marks conjunctionWords rest) : Stops marks comparisonWords rest :=
  stops.mono (List.Subset.refl _) (List.subset_append_right _ _)

theorem conjunction (stops : Stops marks disjunctionWords rest) :
    Stops marks conjunctionWords rest :=
  stops.mono (List.Subset.refl _) (List.subset_append_right _ _)

theorem mark {c : Char} (isMark : isMark c = true) (noPath : isPathChar c = false)
    (apart : c ∉ marks) (nonempty : "" ∉ words) : Stops marks words (c :: more) := by
  have noWordChar : isWordChar c = false := by
    cases word : isWordChar c with
    | false => rfl
    | true => rw [is_path_char_of_word_char word] at noPath; cases noPath
  refine ⟨?_, ?_, ?_⟩
  · intro d first
    cases first
    exact noPath
  · intro d member first
    rw [skip_blank_mark isMark] at first
    cases first
    exact apart member
  · intro word member same
    rw [skip_blank_mark isMark, List.takeWhile_cons_of_neg (by simp [noWordChar])] at same
    exact nonempty (String.toList_eq_nil_iff.mp same.symm ▸ member)

theorem space (stops : Stops marks words rest) : Stops marks words (' ' :: rest) := by
  refine ⟨?_, ?_, ?_⟩
  · intro c first
    cases first
    decide
  · intro c member
    rw [skip_blank_space]
    exact stops.noMark c member
  · intro word member
    rw [skip_blank_space]
    exact stops.noWord word member

theorem refuses (stops : Stops marks words rest) {accepts : Char → Bool}
    (within : ∀ c, accepts c = true → c ∈ marks) :
    ∀ c ∈ (skipBlank rest).head?, accepts c = false := by
  intro c first
  cases accepted : accepts c with
  | false => rfl
  | true => exact absurd first (stops.noMark c (within c accepted))

theorem word {word : String} {c : Char} {later : List Char} (starts : word.toList = c :: later)
    (all : word.toList.all isWordChar = true) (ends : Ends isWordChar more)
    (noMark : marks.all (fun mark => !isWordChar mark) = true) (apart : word ∉ words) :
    Stops marks words (' ' :: (word.toList ++ more)) := by
  have first : isWordChar c = true := by
    rw [starts, List.all_cons, Bool.and_eq_true] at all
    exact all.1
  have skipped : skipBlank (' ' :: (word.toList ++ more)) = word.toList ++ more := by
    rw [skip_blank_space, starts, List.cons_append, skip_blank_mark (is_mark_of_word_char first)]
  refine ⟨?_, ?_, ?_⟩
  · intro d same
    cases same
    decide
  · intro mark member same
    rw [skipped, starts, List.cons_append, List.head?_cons, Option.some.injEq] at same
    have refused := List.all_eq_true.mp noMark mark member
    rw [← same, first] at refused
    cases refused
  · intro other member same
    rw [skipped, take_while_whole all ends] at same
    exact apart (String.toList_inj.mp same ▸ member)

end Stops

theorem one_misses {accepts : Char → Bool} (different : ∀ c ∈ text.head?, accepts c = false) :
    (one accepts).Misses text := by
  cases text with
  | nil => exact ⟨[], .none, rfl⟩
  | cons c later => exact ⟨c :: later, .none, by rw [one, if_neg (by simp [different c rfl])]⟩

theorem one_done {accepts : Char → Bool} {c : Char} (accepted : accepts c = true) :
    one accepts (c :: rest) = .done c rest := by
  rw [one, if_pos accepted]

theorem blank_then_misses {α : Type} {next : Unit → Reader α}
    (misses : (next ()).Misses (skipBlank rest)) : (blank >>= next).Misses rest :=
  bind_then_misses rfl misses

theorem product_sign_mem {c : Char} (sign : isProductSign c = true) : c ∈ ['*', '/', '%'] := by
  simpa [isProductSign, or_assoc] using sign

theorem sign_mem {c : Char} (sign : isSign c = true) : c ∈ ['-', '+'] := by
  simpa [isSign] using sign

theorem Stops.no_product_sign (stops : Stops sumMarks words rest) :
    ∀ c ∈ (skipBlank rest).head?, isProductSign c = false := by
  have within : ∀ c ∈ ['*', '/', '%'], c ∈ sumMarks := by decide
  exact stops.refuses fun c sign => within c (product_sign_mem sign)

theorem Stops.no_sign (stops : Stops sumMarks words rest) :
    ∀ c ∈ (skipBlank rest).head?, isSign c = false := by
  have within : ∀ c ∈ ['-', '+'], c ∈ sumMarks := by decide
  exact stops.refuses fun c sign => within c (sign_mem sign)

theorem signed_read (signs : List Char) (all : signs.all isSign = true) (opens : Opens text)
    (read : defaulted nested text = .done value rest) :
    signed nested (signs ++ text) = .done (signs.foldr applySign value) rest := by
  have start : ∀ signs : List Char, signs.all isSign = true →
      skipBlank (signs ++ text) = signs ++ text := by
    intro signs all
    cases signs with
    | nil => exact opens.skip_blank
    | cons sign others =>
        rw [List.all_cons, Bool.and_eq_true, isSign, Bool.or_eq_true, beq_iff_eq, beq_iff_eq] at all
        rcases all.1 with same | same <;> exact skip_blank_mark (by subst same; decide) _
  have noSign : ∀ c ∈ text.head?, isSign c = false := by
    obtain ⟨c, later, same, first⟩ := opens
    intro d head
    rw [same] at head
    cases head
    cases sign : isSign c with
    | false => rfl
    | true =>
        rw [isSign, Bool.or_eq_true, beq_iff_eq, beq_iff_eq] at sign
        rcases sign with same | same <;> (subst same; cases first)
  have repeats : ∀ signs : List Char, signs.all isSign = true →
      Repeats (do let sign ← one isSign; blank; return sign) (signs ++ text) signs text := by
    intro signs all
    induction signs with
    | nil => exact .last (bind_misses (one_misses noSign))
    | cons sign others ih =>
        rw [List.all_cons, Bool.and_eq_true] at all
        refine .next ?_ (Nat.lt_succ_self _) (ih all.2)
        rw [List.cons_append, bind_done (one_done all.1)]
        have skipped : blank (others ++ text) = .done () (others ++ text) := by
          rw [blank, start others all.2]
        rw [bind_done skipped]
        rfl
  have begins : blank (signs ++ text) = .done () (signs ++ text) := by rw [blank, start signs all]
  rw [signed, bind_done begins, bind_done (many_repeats (repeats signs all))]
  cases signs with
  | nil =>
      rw [List.isEmpty_nil, if_pos rfl, bind_done read]
      rfl
  | cons sign others =>
      rw [List.isEmpty_cons, if_neg Bool.false_ne_true, bind_done (commit_done read)]
      rfl

theorem chain_single {signs : Char → Bool} {operand : Reader Formula}
    (read : operand text = .done value rest)
    (last : ∀ c ∈ (skipBlank rest).head?, signs c = false) :
    chain signs operand text = .done value rest := by
  have none : many (do
      blank
      let sign ← one signs
      let right ← commit operand
      return (sign, right)) rest = .done [] rest :=
    many_misses (blank_then_misses (bind_misses (one_misses last)))
  rw [chain, bind_done read, bind_done none]
  rfl

theorem symbol_misses (comparison : Comparison)
    (noMark : ∀ c ∈ ['=', '!', '<', '>'], text.head? ≠ some c) :
    (symbol comparison).Misses text := by
  have starts : ∃ c ∈ ['=', '!', '<', '>'], comparison.symbol.toList.head? = some c := by
    cases comparison <;> decide
  obtain ⟨c, member, same⟩ := starts
  exact bind_misses (exactly_misses_head same (noMark c member))

theorem comparison_symbol_misses (noMark : ∀ c ∈ ['=', '!', '<', '>'], text.head? ≠ some c) :
    comparisonSymbol.Misses text := by
  have misses (comparison : Comparison) := symbol_misses comparison noMark
  unfold comparisonSymbol
  repeat' apply or_else_both_miss
  all_goals exact misses _

theorem comparison_single (read : sum nested text = .done value rest)
    (stops : Stops comparisonMarks comparisonWords rest) :
    comparison nested text = .done value rest := by
  have noSymbol : optional (do blank; comparisonSymbol) rest = .done none rest :=
    optional_misses (blank_then_misses (comparison_symbol_misses fun c member =>
      stops.noMark c (List.mem_append_left _ member)))
  have noIn : optional (do blank; keyword "in") rest = .done none rest :=
    optional_misses (blank_then_misses
      (keyword_misses (by decide) (stops.noWord "in" (List.mem_cons_self))))
  rw [comparison, bind_done read, bind_done noSymbol]
  dsimp only
  rw [bind_done noIn]
  rfl

theorem either_case_misses {lower upper : String} (allLower : lower.toList.all isWordChar = true)
    (allUpper : upper.toList.all isWordChar = true)
    (noLower : text.takeWhile isWordChar ≠ lower.toList)
    (noUpper : text.takeWhile isWordChar ≠ upper.toList) : (eitherCase lower upper).Misses text :=
  or_else_both_miss (keyword_misses allLower noLower) (keyword_misses allUpper noUpper)

theorem negated_single (start : skipBlank text = text) (noNot : (eitherCase "not" "NOT").Misses text)
    (read : comparison nested text = .done value rest) :
    negated nested text = .done value rest := by
  have begins : blank text = .done () text := by rw [blank, start]
  have none : many (do eitherCase "not" "NOT"; blank) text = .done [] text :=
    many_misses (bind_misses noNot)
  rw [negated, bind_done begins, bind_done none, List.isEmpty_nil, if_pos rfl, bind_done read]
  rfl

theorem joined_single {lower upper : String} {build : List Formula → Formula}
    {operand : Reader Formula} (read : operand text = .done value rest)
    (last : (eitherCase lower upper).Misses (skipBlank rest)) :
    joined lower upper build operand text = .done value rest := by
  have none : many (do
      blank
      eitherCase lower upper
      commit operand) rest = .done [] rest := many_misses (blank_then_misses (bind_misses last))
  rw [joined, bind_done read, bind_done none, List.isEmpty_nil, if_pos rfl]
  rfl

theorem Stops.no_and (stops : Stops marks conjunctionWords rest) :
    (eitherCase "and" "AND").Misses (skipBlank rest) :=
  either_case_misses rfl rfl (stops.noWord "and" (.head _)) (stops.noWord "AND" (.tail _ (.head _)))

theorem Stops.no_or (stops : Stops marks disjunctionWords rest) :
    (eitherCase "or" "OR").Misses (skipBlank rest) :=
  either_case_misses rfl rfl (stops.noWord "or" (.head _)) (stops.noWord "OR" (.tail _ (.head _)))

theorem conjunction_single (read : negated nested text = .done value rest)
    (stops : Stops marks conjunctionWords rest) : conjunction nested text = .done value rest :=
  joined_single read stops.no_and

theorem disjunction_single (read : conjunction nested text = .done value rest)
    (stops : Stops marks disjunctionWords rest) : disjunction nested text = .done value rest :=
  joined_single read stops.no_or

section

variable {ι α : Type} {separator : List Char} {good : List Char → Prop} (chars : ι → List Char)
variable (between : ∀ more, good (separator ++ more)) (last : good rest)

include between last

theorem good_separated (items : List ι) :
    good (items.flatMap (fun item => separator ++ chars item) ++ rest) := by
  cases items with
  | nil => exact last
  | cons first others =>
      rw [List.flatMap_cons, List.append_assoc, List.append_assoc]
      exact between _

theorem repeats_separated {step : Reader α} (items : List ι) (value : ι → α)
    (each : ∀ item ∈ items, ∀ rest, good rest →
      step (separator ++ (chars item ++ rest)) = .done (value item) rest)
    (nonempty : separator ≠ []) (misses : step.Misses rest) :
    Repeats step (items.flatMap (fun item => separator ++ chars item) ++ rest) (items.map value)
      rest := by
  induction items with
  | nil => exact .last misses
  | cons item others ih =>
      have read := each item (List.mem_cons_self) _ (good_separated chars between last others)
      rw [List.flatMap_cons, List.append_assoc, List.append_assoc]
      refine .next read ?_ (ih fun other member => each other (List.mem_cons_of_mem _ member))
      have long := List.length_pos_iff.mpr nonempty
      simp only [List.length_append]
      omega

end

theorem joined_map {ι : Type} (separator : String) (chars : ι → List Char) (first : ι)
    (others : List ι) :
    Formula.joined separator ((first :: others).map chars) =
      chars first ++ others.flatMap fun item => separator.toList ++ chars item := by
  induction others generalizing first with
  | nil =>
      rw [List.map_cons, List.map_nil, Formula.joined, List.flatMap_nil, List.append_nil]
  | cons second more ih =>
      rw [List.map_cons, List.map_cons, Formula.joined, ← List.map_cons, ih, List.flatMap_cons,
        List.append_assoc, List.append_assoc]
      exact List.cons_ne_nil _ _

structure ReadsOperand (nested : Reader Formula) (text : List Char) (value : Formula)
    (rest : List Char) : Prop where
  start : skipBlank (text ++ rest) = text ++ rest
  noNot : (eitherCase "not" "NOT").Misses (text ++ rest)
  noList : (text ++ rest).head? ≠ some '['
  signed : ∀ signs : List Char, signs.all isSign = true →
    signed nested (signs ++ (text ++ rest)) = .done (signs.foldr applySign value) rest

namespace ReadsOperand

variable (reads : ReadsOperand nested text value rest)

include reads

theorem product (stops : Stops productMarks words rest) :
    product nested (text ++ rest) = .done value rest := by
  have within : ∀ c ∈ ['*', '/', '%'], c ∈ productMarks := by decide
  exact chain_single (reads.signed [] rfl) (stops.refuses fun c sign =>
    within c (product_sign_mem sign))

theorem sum (stops : Stops sumMarks words rest) : sum nested (text ++ rest) = .done value rest :=
  chain_single (reads.product stops.product) stops.no_sign

theorem comparison (stops : Stops comparisonMarks comparisonWords rest) :
    comparison nested (text ++ rest) = .done value rest :=
  comparison_single (reads.sum stops.sum) stops

theorem negated (stops : Stops comparisonMarks comparisonWords rest) :
    negated nested (text ++ rest) = .done value rest :=
  negated_single reads.start reads.noNot (reads.comparison stops)

theorem conjunction (stops : Stops comparisonMarks conjunctionWords rest) :
    conjunction nested (text ++ rest) = .done value rest :=
  conjunction_single (reads.negated stops.comparison) stops

theorem disjunction (stops : Stops comparisonMarks disjunctionWords rest) :
    disjunction nested (text ++ rest) = .done value rest :=
  disjunction_single (reads.conjunction stops.conjunction) stops

end ReadsOperand

end Tariff.Script
