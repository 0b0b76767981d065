import Tariff.Script.Document
import Tariff.Proofs.Formula.Written
import Tariff.Proofs.Script.Token

set_option autoImplicit false

namespace Tariff

theorem Arithmetic.Writes.one_more {op : Arithmetic} {count : Nat} (writes : op.Writes count)
    (flattens : op.flattens = true) : op.Writes (count + 1) := by
  obtain ⟨accepts, _⟩ := writes
  cases op with
  | add => exact ⟨Nat.le_add_left 1 count, fun same => by cases same⟩
  | multiply =>
      have some : 1 ≤ count := accepts
      exact ⟨Nat.le_add_left 1 count, fun _ => by omega⟩
  | _ => cases flattens

namespace Formula

variable {path : String → Prop} {scalar : Scalar → Prop}

theorem Written.combine {op : Arithmetic} {left right : Formula}
    (lefts : left.Written path scalar) (rights : right.Written path scalar) :
    (combine op left right).Written path scalar := by
  have two : op.Writes 2 := by
    refine ⟨?_, fun _ => by decide⟩
    cases op <;> decide
  have pair : (Formula.arithmetic op [left, right]).Written path scalar :=
    ⟨two, lefts, rights, trivial⟩
  unfold Formula.combine
  split
  · rename_i inner operands
    split
    · rename_i flat
      rw [Bool.and_eq_true, beq_iff_eq] at flat
      obtain ⟨flattens, same⟩ := flat
      subst same
      obtain ⟨writes, each⟩ := lefts
      refine ⟨?_, (written_each_iff _).mpr fun formula member => ?_⟩
      · rw [List.length_append, List.length_singleton]
        exact writes.one_more flattens
      · rcases List.mem_append.mp member with old | new
        · exact (written_each_iff _).mp each formula old
        · rw [List.mem_singleton.mp new]
          exact rights
    · exact pair
  · exact pair

theorem Written.foldl {op : Char → Arithmetic} {first : Formula} {others : List (Char × Formula)}
    (start : first.Written path scalar)
    (each : ∀ item ∈ others, item.2.Written path scalar) :
    (others.foldl (fun left (sign, right) => Formula.combine (op sign) left right) first).Written
      path scalar := by
  induction others generalizing first with
  | nil => exact start
  | cons item rest ih =>
      obtain ⟨here, later⟩ := List.forall_mem_cons.mp each
      exact ih (start.combine here) later

theorem Written.apply_sign {sign : Char} {operand : Formula}
    (negates : ∀ number, scalar (.number number) → scalar (.number number.neg))
    (written : operand.Written path scalar) :
    (Script.applySign sign operand).Written path scalar := by
  unfold Script.applySign
  split
  · split
    · exact negates _ written
    · exact ⟨⟨.inl rfl, fun same => by cases same⟩, written, trivial⟩
  · exact ⟨⟨Nat.le_refl 1, fun same => by cases same⟩, written, trivial⟩

end Formula

namespace Script

open Reader

theorem word_run_all {start later : List Char} {accepts : Char → Bool}
    (wider : ∀ c, startsWord c = true → accepts c = true)
    (first : start ≠ [] ∧ start.all startsWord = true) (rest : later.all accepts = true) :
    (∃ c more, start ++ later = c :: more ∧ startsWord c = true) ∧
      (start ++ later).all accepts = true := by
  obtain ⟨nonempty, all⟩ := first
  obtain ⟨c, more, same⟩ := List.exists_cons_of_ne_nil nonempty
  have accepted : start.all accepts = true := by
    rw [List.all_eq_true] at all ⊢
    exact fun c member => wider c (all c member)
  subst same
  rw [List.all_cons, Bool.and_eq_true] at all
  exact ⟨⟨c, more ++ later, rfl, all.1⟩, by rw [List.all_append, accepted, rest]; rfl⟩

theorem name_yields : Yields (fun name => IsName name.toList) name := by
  refine Yields.some_run.bind fun start isStart => Yields.run.bind fun later isLater => ?_
  refine Yields.pure ?_
  obtain ⟨starts, all⟩ := word_run_all (fun _ => is_word_char_of_starts_word) isStart isLater
  rw [String.toList_ofList]
  exact ⟨starts, all⟩

theorem path_yields : Yields (fun path => IsDotted path.toList) path := by
  refine Yields.some_run.bind fun start isStart => Yields.run.bind fun later isLater => ?_
  obtain ⟨starts, all⟩ := word_run_all
    (fun _ starts => is_path_char_of_word_char (is_word_char_of_starts_word starts)) isStart isLater
  split
  · intro text value rest done
    cases done
  · refine Yields.pure ?_
    rw [String.toList_ofList]
    exact ⟨starts, all⟩

abbrev Sound (formula : Formula) : Prop :=
  formula.Written (fun path => IsDotted path.toList) fun _ => True

variable {nested operand : Reader Formula}

theorem sum_of_sound {rule : String} (isName : IsName rule.toList) : Sound (.sumOf rule) := by
  have root : Formula.sumRoot.toList = ['c', 'a', 'm', 'p', 'e', 'r', 's'] := rfl
  have text : (Formula.sumRoot ++ "." ++ rule).toList =
      'c' :: (['a', 'm', 'p', 'e', 'r', 's', '.'] ++ rule.toList) := by
    rw [String.toList_append, String.toList_append, root]
    rfl
  have chars : rule.toList.all isPathChar = true := by
    have all := isName.chars
    rw [List.all_eq_true] at all ⊢
    exact fun c member => is_path_char_of_word_char (all c member)
  refine ⟨⟨⟨'c', _, text, rfl⟩, ?_⟩, fun value member => trivial⟩
  rw [text, List.all_cons, List.all_append, chars]
  rfl

theorem branch_yields (yields : Yields Sound nested) :
    Yields (fun branch => Sound branch.1 ∧ Sound branch.2) (branch nested) := by
  refine yields.commit.bind fun condition isCondition => .after fun _ => .after fun _ => ?_
  exact yields.commit.bind fun consequence isConsequence => .pure ⟨isCondition, isConsequence⟩

theorem conditional_yields (yields : Yields Sound nested) : Yields Sound (conditional nested) := by
  refine .after fun _ => (branch_yields yields).bind fun first isFirst => ?_
  have elif : Yields (fun branch => Sound branch.1 ∧ Sound branch.2)
      (do blank; keyword "elif"; commit (branch nested)) :=
    .after fun _ => .after fun _ => (branch_yields yields).commit
  have last : Yields Sound (do blank; keyword "else"; commit nested) :=
    .after fun _ => .after fun _ => yields.commit
  refine elif.many.bind fun more areMore => last.optional.bind fun otherwise isOtherwise => ?_
  have branches : Formula.WrittenBranches (fun path => IsDotted path.toList) (fun _ => True)
      (first :: more) :=
    (Formula.written_branches_iff _).mpr (List.forall_mem_cons.mpr ⟨isFirst, areMore⟩)
  refine .pure ?_
  cases otherwise with
  | none => exact ⟨List.cons_ne_nil _ _, branches⟩
  | some otherwise => exact ⟨List.cons_ne_nil _ _, branches, isOtherwise otherwise rfl⟩

theorem extreme_call_yields {op : Arithmetic} (isCall : op = .least ∨ op = .greatest)
    (yields : Yields Sound nested) : Yields Sound (extremeCall op nested) := by
  refine .after fun _ => yields.separated.commit.bind fun operands areOperands => .after fun _ => ?_
  obtain ⟨nonempty, each⟩ := areOperands
  have some : 1 ≤ operands.length := List.length_pos_iff.mpr nonempty
  refine .pure ⟨?_, (Formula.written_each_iff _).mpr each⟩
  rcases isCall with same | same <;> (subst same; exact ⟨some, fun same => by cases same⟩)

theorem call_yields (yields : Yields Sound nested) : Yields Sound (call nested) := by
  have sum : Yields Sound sumCall := by
    have named : Yields (fun rule => IsName rule.toList)
        (expecting "camper rule name" (commit (do blank; name))) :=
      .expecting (.commit (.after fun _ => name_yields))
    exact .after fun _ => named.bind fun rule isName => .after fun _ => .pure (sum_of_sound isName)
  have truth : Yields Sound (truthCall nested) :=
    .after fun _ => yields.commit.bind fun operand isSound => .after fun _ => .pure isSound
  exact (extreme_call_yields (.inl rfl) yields).or_else
    ((extreme_call_yields (.inr rfl) yields).or_else (sum.or_else truth))

theorem primary_yields (yields : Yields Sound nested) : Yields Sound (primary nested) := by
  have inner : Yields Sound (parenthesis nested) :=
    .after fun _ => yields.bind fun formula isSound => .after fun _ => .pure isSound
  have value : Yields Sound (do return .literal (← literal)) := .after fun _ => .pure trivial
  have field : Yields Sound (do return .field (← path) none) :=
    path_yields.bind fun path isPath => .pure ⟨isPath, fun value member => trivial⟩
  exact .after fun _ => .expecting (inner.or_else ((conditional_yields yields).or_else
    ((call_yields yields).or_else (value.or_else field))))

theorem defaulted_yields (yields : Yields Sound nested) : Yields Sound (defaulted nested) := by
  refine (primary_yields yields).bind fun formula isSound => .after fun marks => ?_
  cases marks with
  | none => exact .pure isSound
  | some mark =>
      refine .after fun default => ?_
      unfold withDefault
      split
      · exact .pure ⟨isSound.1, fun value member => trivial⟩
      · intro text value rest done
        cases done

theorem signed_yields (yields : Yields Sound nested) : Yields Sound (signed nested) := by
  have operand := defaulted_yields yields
  refine .after fun _ => .after fun signs => ?_
  have applied (formula : Formula) (isSound : Sound formula) :
      Sound (signs.foldr applySign formula) := by
    induction signs with
    | nil => exact isSound
    | cons sign others ih => exact ih.apply_sign fun _ _ => trivial
  dsimp only
  split
  · exact operand.bind fun formula isSound => .pure (applied formula isSound)
  · exact operand.commit.bind fun formula isSound => .pure (applied formula isSound)

theorem chain_yields {signs : Char → Bool} (yields : Yields Sound operand) :
    Yields Sound (chain signs operand) := by
  have step : Yields (fun item : Char × Formula => Sound item.2)
      (do blank; let sign ← one signs; let right ← commit operand; return (sign, right)) :=
    .after fun _ => .after fun sign => yields.commit.bind fun right isSound => .pure isSound
  exact yields.bind fun first isFirst => step.many.bind fun more areMore =>
    .pure (isFirst.foldl areMore)

theorem sum_yields (yields : Yields Sound nested) : Yields Sound (sum nested) :=
  chain_yields (chain_yields (signed_yields yields))

theorem container_yields (yields : Yields Sound nested) {needle : Formula} (isNeedle : Sound needle) :
    Yields Sound (container nested needle) := by
  have listed : Yields (fun formulas => ∀ formula ∈ formulas, Sound formula) (candidates nested) :=
    .after fun _ => yields.separated_or_none.bind fun formulas areSound =>
      .after fun _ => .after fun _ => .pure areSound
  refine Yields.or_else (listed.bind fun formulas areSound => ?_) ?_
  · exact .pure ⟨isNeedle, (Formula.written_each_iff _).mpr areSound⟩
  · exact (sum_yields yields).bind fun haystack isSound => .pure ⟨isSound, isNeedle⟩

theorem comparison_yields (yields : Yields Sound nested) : Yields Sound (comparison nested) := by
  refine (sum_yields yields).bind fun left isLeft => .after fun symbols => ?_
  cases symbols with
  | some comparison =>
      exact (sum_yields yields).commit.bind fun right isRight => .pure ⟨isLeft, isRight⟩
  | none =>
      refine .after fun word => ?_
      cases word with
      | some found => exact .after fun _ => (container_yields yields isLeft).commit
      | none => exact .pure isLeft

theorem negated_yields (yields : Yields Sound nested) : Yields Sound (negated nested) := by
  have operand := comparison_yields yields
  refine .after fun _ => .after fun nots => ?_
  have applied (formula : Formula) (isSound : Sound formula) :
      Sound (nots.foldr (fun _ operand => .not operand) formula) := by
    induction nots with
    | nil => exact isSound
    | cons word others ih => exact ih
  dsimp only
  split
  · exact operand.bind fun formula isSound => .pure (applied formula isSound)
  · exact operand.commit.bind fun formula isSound => .pure (applied formula isSound)

theorem joined_yields {lower upper : String} {build : List Formula → Formula}
    (builds : ∀ operands, operands ≠ [] → (∀ operand ∈ operands, Sound operand) →
      Sound (build operands)) (yields : Yields Sound operand) :
    Yields Sound (joined lower upper build operand) := by
  have step : Yields Sound (do blank; eitherCase lower upper; commit operand) :=
    .after fun _ => .after fun _ => yields.commit
  refine yields.bind fun first isFirst => step.many.bind fun more areMore => ?_
  split
  · exact .pure isFirst
  · exact .pure (builds _ (List.cons_ne_nil _ _) (List.forall_mem_cons.mpr ⟨isFirst, areMore⟩))

theorem formula_within_yields (depth : Nat) : Yields Sound (formulaWithin depth) := by
  induction depth with
  | zero =>
      intro text value rest done
      cases done
  | succ depth ih =>
      have all : Yields Sound (conjunction (formulaWithin depth)) :=
        joined_yields (fun operands nonempty each =>
          ⟨nonempty, (Formula.written_each_iff _).mpr each⟩) (negated_yields ih)
      have any : Yields Sound (disjunction (formulaWithin depth)) :=
        joined_yields (fun operands nonempty each =>
          ⟨nonempty, (Formula.written_each_iff _).mpr each⟩) all
      exact .after fun _ => any

theorem formula_yields : Yields Sound formula :=
  fun text value rest done => formula_within_yields (text.length + 1) text value rest done

structure SoundRule (draft : RuleDraft) : Prop where
  named : IsName draft.name.toList
  priced : ∃ formula, draft.price = .formula formula ∧ Sound formula

def Statement.IsSound : Statement → Prop
  | .constant key value => IsName key.toList ∧ ∃ scalar : Scalar, value = scalar.toJson
  | .rule scope draft isTotal => SoundRule draft ∧ (isTotal = true → scope = .registration)

theorem constant_statement_yields : Yields Statement.IsSound constantStatement := by
  have named : Yields (fun key => IsName key.toList) (expecting "constant name" (commit name)) :=
    name_yields.commit.expecting
  refine .after fun _ => .after fun _ => named.bind fun key isName => .after fun _ => ?_
  exact .after fun _ => .after fun value => .pure ⟨isName, value, rfl⟩

theorem rule_statement_yields : Yields Statement.IsSound ruleStatement := by
  have named : Yields (fun name => IsName name.toList) (expecting "rule name" (commit name)) :=
    name_yields.commit.expecting
  have body : Yields Sound (expecting "rule body" (commit formula)) := formula_yields.commit.expecting
  refine .after fun scope => .after fun _ => named.bind fun name isName => .after fun label => ?_
  refine .after fun marked => ?_
  dsimp only
  split
  · intro text value rest done
    cases done
  · rename_i unmarked
    refine .after fun _ => .after fun _ => body.bind fun value isSound => .pure ?_
    refine ⟨⟨isName, value, rfl, isSound⟩, fun isTotal => ?_⟩
    cases scope with
    | camper => exact absurd (by rw [isTotal]; rfl) unmarked
    | registration => rfl

theorem statements_yield : Yields (fun found => ∀ statement ∈ found, statement.IsSound) statements := by
  have step : Yields Statement.IsSound (do blank; constantStatement <|> ruleStatement) :=
    .after fun _ => constant_statement_yields.or_else rule_statement_yields
  exact step.many.bind fun found areSound => .after fun _ => .pure areSound

structure IsSound (script : Script) : Prop where
  rules : ∀ rule ∈ script.rules, SoundRule rule.2
  constants : ∀ entry ∈ script.constants.members,
    IsName entry.1.toList ∧ ∃ scalar : Scalar, entry.2 = scalar.toJson
  total : ∀ name ∈ script.total, ∃ draft, (Scope.registration, draft) ∈ script.rules ∧ draft.name = name

theorem IsSound.add {script : Script} (isSound : script.IsSound) {statement : Statement}
    (good : statement.IsSound) : (script.add statement).IsSound := by
  cases statement with
  | constant key value =>
      refine ⟨isSound.rules, fun entry member => ?_, isSound.total⟩
      rcases Json.Members.mem_insert member with new | old
      · rw [new]
        exact good
      · exact isSound.constants entry old
  | rule scope draft isTotal =>
      refine ⟨fun rule member => ?_, isSound.constants, fun name member => ?_⟩
      · rcases List.mem_append.mp member with old | new
        · exact isSound.rules rule old
        · rw [List.mem_singleton.mp new]
          exact good.1
      · cases isTotal with
        | true =>
            cases member
            rw [good.2 rfl]
            exact ⟨draft, List.mem_append_right _ (List.mem_singleton_self _), rfl⟩
        | false =>
            obtain ⟨other, found, same⟩ := isSound.total name member
            exact ⟨other, List.mem_append_left _ found, same⟩

theorem of_statements_is_sound (found : List Statement)
    (good : ∀ statement ∈ found, statement.IsSound) : (ofStatements found).IsSound := by
  have start : empty.IsSound := by
    refine ⟨?_, ?_, ?_⟩
    · intro rule member
      cases member
    · intro entry member
      cases member
    · intro name member
      cases member
  unfold ofStatements
  revert start
  generalize empty = script
  intro start
  induction found generalizing script with
  | nil => exact start
  | cons statement others ih =>
      obtain ⟨here, later⟩ := List.forall_mem_cons.mp good
      exact ih later (script.add statement) (start.add here)

theorem of_string_is_sound {text : String} {script : Script} (read : ofString text = .ok script) :
    script.IsSound := by
  unfold ofString ofChars at read
  split at read
  · rename_i found done
    cases read
    exact of_statements_is_sound found (statements_yield _ _ _ done)
  · cases read
  · cases read
  · cases read

end Script

end Tariff
