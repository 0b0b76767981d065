import Tariff.RuleSet.Printer
import Tariff.Proofs.RuleSet.Drafted
import Tariff.Proofs.RuleSet.Reach
import Tariff.Proofs.Script.Lines
import Tariff.Proofs.Script.Yielded

set_option autoImplicit false

namespace Tariff

open Script

def Rule.reread (rule : Rule) : Rule :=
  ⟨rule.name, rule.label.map rereadLabel, rule.body.map Formula.reread⟩

def Rule.redraft (rule : Rule) : RuleDraft :=
  match rule.body with
  | .ok formula => ⟨rule.name, rule.label.map rereadLabel, .formula formula.reread⟩
  | .error _ => ⟨rule.name, rule.label.map rereadLabel, .missing⟩

theorem Rule.redraft_priced {rule : Rule} {formula : Formula} (body : rule.body = .ok formula) :
    rule.redraft = ⟨rule.name, rule.label.map rereadLabel, .formula formula.reread⟩ := by
  rw [redraft, body]

namespace RuleSet

def reread (set : RuleSet) : RuleSet :=
  ⟨set.camper.map Rule.reread, set.registration.map Rule.reread, set.constants, set.total⟩

def isTotal (set : RuleSet) (rule : Rule) : Bool := rule.name == set.total

def statements (set : RuleSet) : List Statement :=
  set.constants.members.map (fun entry => .constant entry.1 entry.2) ++
    set.camper.map (fun rule => .rule .camper rule.redraft false) ++
    set.registration.map fun rule => .rule .registration rule.redraft (set.isTotal rule)

structure IsLegible (set : RuleSet) : Prop where
  constants : ∀ entry ∈ set.constants.members, IsName entry.1.toList ∧
    ∃ value : Scalar, entry.2 = value.toJson ∧ value.toJson.Sayable
  rules : ∀ scope, ∀ rule ∈ set.rules scope, IsName rule.name.toList ∧
    ∃ formula, rule.body = .ok formula ∧ Legible formula

theorem constant_line_chars (key : String) (value : Scalar) :
    (constantLine key value.toJson).toList = constantChars key value.toJson ++ ['\n'] := by
  have text : constantLine key value.toJson =
      "pricing " ++ key ++ " = " ++ value.toJson.text ++ "\n" := by
    cases value with
    | number number =>
        change constantLine key (Scalar.numberToJson number) =
          _ ++ (Scalar.numberToJson number).text ++ _
        rcases Scalar.number_to_json_cases number with ⟨_, _, _, same⟩ | same | ⟨_, same⟩ <;>
          rw [same] <;> rfl
    | _ => rfl
  rw [text]
  unfold constantChars Json.text
  simp

theorem rule_line_chars (scope : Scope) (isTotal : Bool) {rule : Rule} {formula : Formula}
    (body : rule.body = .ok formula) :
    (ruleLine scope isTotal rule).toList =
      ruleChars scope isTotal rule.name rule.label formula.chars ++ ['\n'] := by
  have label : (labelText rule.label).toList = labelChars rule.label := by
    cases rule.label with
    | none => rfl
    | some label => simp [labelText, labelChars]
  have mark : (if isTotal then " (total)" else "").toList = totalChars isTotal := by
    cases isTotal <;> rfl
  have text : (bodyText rule).toList = formula.chars := by
    rw [bodyText, body]
    exact String.toList_ofList
  simp [ruleLine, ruleChars, label, mark, text]

theorem rule_line {scope : Scope} {isTotal : Bool} {rule : Rule} {formula : Formula}
    (isName : IsName rule.name.toList) (body : rule.body = .ok formula) (legible : Legible formula)
    (registered : isTotal = true → scope = .registration) :
    ∃ chars, (ruleLine scope isTotal rule).toList = chars ++ ['\n'] ∧
      IsLine chars (.rule scope rule.redraft isTotal) := by
  refine ⟨_, rule_line_chars scope isTotal body, ?_⟩
  rw [Rule.redraft_priced body]
  exact .rule isName legible registered

theorem IsLegible.lines {set : RuleSet} (legible : set.IsLegible) :
    Lines set.render.toList set.statements := by
  rw [render, String.toList_append, String.toList_append]
  refine ((Lines.join fun entry member => ?_).append (.join fun rule member => ?_)).append
    (.join fun rule member => ?_)
  · obtain ⟨key, json⟩ := entry
    obtain ⟨isName, value, same, sayable⟩ := legible.constants _ member
    have same : json = value.toJson := same
    subst same
    exact ⟨_, constant_line_chars key value, .constant isName sayable⟩
  · obtain ⟨isName, formula, body, isLegible⟩ := legible.rules .camper rule member
    exact rule_line isName body isLegible fun same => by cases same
  · obtain ⟨isName, formula, body, isLegible⟩ := legible.rules .registration rule member
    exact rule_line isName body isLegible fun _ => rfl

theorem IsLegible.read {set : RuleSet} (legible : set.IsLegible) :
    Script.ofString set.render = .ok (ofStatements set.statements) := by
  rw [Script.ofString, ofChars, legible.lines.read]

theorem add_constants (script : Script) (members : Json.Members) :
    (members.map fun entry => Statement.constant entry.1 entry.2).foldl add script =
      { script with constants := script.constants.insertAll members } := by
  induction members generalizing script with
  | nil => rfl
  | cons entry rest ih =>
      rw [List.map_cons, List.foldl_cons, ih]
      rfl

theorem add_rules (script : Script) (scope : Scope) (isTotal : Rule → Bool) (rules : List Rule) :
    (rules.map fun rule => Statement.rule scope rule.redraft (isTotal rule)).foldl add script =
      { script with
        rules := script.rules ++ rules.map fun rule => (scope, rule.redraft)
        total := rules.foldl
          (fun total rule => if isTotal rule then some rule.redraft.name else total)
          script.total } := by
  induction rules generalizing script with
  | nil => simp
  | cons rule rest ih =>
      rw [List.map_cons, List.foldl_cons, ih]
      simp [add]

theorem redraft_name (rule : Rule) : rule.redraft.name = rule.name := by
  unfold Rule.redraft
  split <;> rfl

theorem redraft_names (rules : List Rule) :
    (rules.map Rule.redraft).map (·.name) = rules.map (·.name) := by
  rw [List.map_map]
  exact List.map_congr_left fun rule _ => redraft_name rule

theorem marked_total (set : RuleSet) (rules : List Rule) (start : Option String) :
    rules.foldl (fun total rule => if set.isTotal rule then some rule.redraft.name else total) start =
      if set.total ∈ rules.map (·.name) then some set.total else start := by
  induction rules generalizing start with
  | nil => rfl
  | cons rule rest ih =>
      rw [List.foldl_cons, ih, redraft_name, List.map_cons]
      by_cases later : set.total ∈ rest.map (·.name)
      · rw [if_pos later, if_pos (List.mem_cons_of_mem _ later)]
      · by_cases same : rule.name = set.total
        · simp [isTotal, same]
        · simp [isTotal, same, Ne.symm same, later]

theorem of_statements_statements (set : RuleSet) :
    ofStatements set.statements =
      ⟨set.camper.map (fun rule => (.camper, rule.redraft)) ++
          set.registration.map (fun rule => (.registration, rule.redraft)),
        set.constants,
        if set.total ∈ set.registration.map (·.name) then some set.total else none⟩ := by
  have unmarked (start : Option String) : set.camper.foldl
      (fun total rule => if false = true then some rule.redraft.name else total) start = start := by
    simp
  rw [ofStatements, statements, List.foldl_append, List.foldl_append, add_constants,
    add_rules _ .camper fun _ => false, add_rules _ .registration set.isTotal]
  simp only [unmarked, marked_total, empty, List.nil_append, Json.Object.insert_all_empty]

theorem redrafts (set : RuleSet) (scope : Scope) :
    (ofStatements set.statements).toDraft.drafts scope = (set.rules scope).map Rule.redraft := by
  rw [to_draft_drafts, of_statements_statements, List.filter_append]
  cases scope with
  | camper => simp [List.filter_map, Function.comp_def, rules]
  | registration => simp [List.filter_map, Function.comp_def, rules]

theorem redraft_checked {scope : Scope} {camperRules : List String} {rule : Rule} {formula : Formula}
    (body : rule.body = .ok formula)
    (reached : ∀ path ∈ formula.fields, Reach.defect? scope camperRules path = none) :
    rule.redraft.checked scope camperRules = rule.reread := by
  have fields : formula.reread.fields.findSome? (Reach.defect? scope camperRules) = none := by
    rw [Formula.fields_reread]
    exact List.findSome?_eq_none_iff.mpr reached
  rw [Rule.redraft_priced body, RuleDraft.checked, RuleDraft.body]
  dsimp only
  rw [fields, Rule.reread, body]
  rfl

end RuleSet

theorem Path.split_dots_word {text piece : List Char} {more : List (List Char)}
    (all : text.all isPathChar = true) (parts : splitDots text = piece :: more) :
    text.takeWhile isWordChar = piece := by
  induction text generalizing piece more with
  | nil =>
      cases parts
      rfl
  | cons c rest ih =>
      rw [List.all_cons, Bool.and_eq_true] at all
      obtain ⟨isPath, later⟩ := all
      by_cases dot : c = '.'
      · rw [splitDots, if_pos dot] at parts
        cases parts
        rw [dot]
        rfl
      · have word : isWordChar c = true := by simpa [isPathChar, dot] using isPath
        rw [splitDots, if_neg dot] at parts
        rw [List.takeWhile_cons_of_pos word]
        cases split : splitDots rest with
        | nil => exact absurd split (split_dots_ne_nil rest)
        | cons first others =>
            rw [split] at parts
            cases parts
            rw [ih later split]

theorem Path.root_word {path root : String} {rest : Path} (isDotted : IsDotted path.toList)
    (parts : Path.ofString path = root :: rest) : path.toList.takeWhile isWordChar = root.toList := by
  unfold Path.ofString at parts
  obtain ⟨piece, more, split, first, _⟩ := List.map_eq_cons_iff.mp parts
  rw [Path.split_dots_word isDotted.chars split, ← first, String.toList_ofList]

theorem Reach.Reaches.is_path {camperRules : List String} {scope : Scope} {path : String}
    (reaches : Reaches camperRules scope path) (isDotted : IsDotted path.toList) :
    IsPath path.toList := by
  refine ⟨isDotted, ?_⟩
  have free {root : String} {rest : Path} (parts : Path.ofString path = root :: rest)
      (unreserved : isReserved root.toList = false) :
      isReserved (path.toList.takeWhile isWordChar) = false := by
    rw [Path.root_word isDotted parts]
    exact unreserved
  cases reaches with
  | registration parts => exact free parts (by decide)
  | constant parts => exact free parts (by decide)
  | camper parts => exact free parts (by decide)
  | count => decide
  | sum member => exact free (sum_path_parts _) (by decide)

def Rule.scalars (rule : Rule) : List Scalar :=
  match rule.body with
  | .ok formula => formula.scalars
  | .error _ => []

namespace RuleSet

def Priced (set : RuleSet) : Prop :=
  ∀ scope, ∀ rule ∈ set.rules scope, ∃ formula, rule.body = .ok formula

theorem priced_of_defects {set : RuleSet} (noDefects : set.defects = []) : set.Priced := by
  obtain ⟨camper, registration⟩ := List.append_eq_nil_iff.mp noDefects
  have priced {scope : Scope} {rules : List Rule} (none : defectsOf scope rules = []) :
      ∀ rule ∈ rules, ∃ formula, rule.body = .ok formula := by
    intro rule member
    have own := List.filterMap_eq_nil_iff.mp none rule member
    cases body : rule.body with
    | ok formula => exact ⟨formula, rfl⟩
    | error defect => simp [Rule.defect?, body] at own
  intro scope
  cases scope with
  | camper => exact priced camper
  | registration => exact priced registration

-- What the texts and the constants of the set have to be for a script to say them.
def Sayable (set : RuleSet) : Prop :=
  (∀ rule ∈ set.camper ++ set.registration, ∀ value ∈ rule.scalars, value.IsVerbatim) ∧
    ∀ entry ∈ set.constants.members, entry.2.Sayable

instance : DecidablePred Sayable := fun _ => inferInstanceAs (Decidable (_ ∧ _))

theorem mem_rules {set : RuleSet} {scope : Scope} {rule : Rule} (member : rule ∈ set.rules scope) :
    rule ∈ set.camper ++ set.registration := by
  cases scope with
  | camper => exact List.mem_append_left _ member
  | registration => exact List.mem_append_right _ member

end RuleSet

section

variable {script : Script} {set : RuleSet}

theorem body_formula {scope : Scope} {camperRules : List String} {draft : RuleDraft}
    {formula written : Formula} (price : draft.price = .formula written)
    (body : draft.body scope camperRules = .ok formula) : formula = written := by
  rw [RuleDraft.body, price] at body
  dsimp only at body
  split at body
  · cases body
  · cases body
    rfl

theorem Script.IsSound.legible (isSound : script.IsSound)
    (checked : script.toDraft.check .lenient = .ok set) (priced : set.Priced)
    (sayable : set.Sayable) : set.IsLegible := by
  have reaching := Draft.check_reaching .lenient script.toDraft set checked
  constructor
  · intro entry member
    have held : entry ∈ script.constants.members := by
      rw [(Draft.lenient_rest checked).1, script.to_draft_constants] at member
      exact member
    obtain ⟨isName, value, same⟩ := isSound.constants entry held
    exact ⟨isName, value, same, same ▸ sayable.2 entry member⟩
  · intro scope rule member
    obtain ⟨formula, body⟩ := priced scope rule member
    have drafted := member
    rw [Draft.lenient_rules checked] at drafted
    obtain ⟨draft, held, made⟩ := List.mem_map.mp drafted
    obtain ⟨isName, written, price, sound⟩ :=
      isSound.rules _ ((script.mem_to_draft_drafts scope draft).mp held)
    have same : formula = written := body_formula price (by rw [← made] at body; exact body)
    subst same
    refine ⟨by rw [← made]; exact isName, formula, body, ?_⟩
    refine sound.narrow formula (fun path field isDotted => ?_) fun value scalar _ => ?_
    · exact (reaching scope rule member formula body path field).is_path isDotted
    · refine sayable.1 rule (RuleSet.mem_rules member) value ?_
      rw [Rule.scalars, body]
      exact scalar

-- The total is a rule of the registration, or no rule is marked and the set falls back on a name.
theorem Script.IsSound.total_held (isSound : script.IsSound)
    (checked : script.toDraft.check .lenient = .ok set) :
    set.total ∈ set.registration.map (·.name) ∨ set.total = Draft.defaultTotal := by
  have held : set.total = script.total.getD Draft.defaultTotal := (Draft.lenient_rest checked).2
  cases marked : script.total with
  | none =>
      rw [marked] at held
      exact .inr held
  | some name =>
      rw [marked] at held
      obtain ⟨draft, member, named⟩ := isSound.total name marked
      have drafted : draft ∈ script.toDraft.drafts .registration :=
        (script.mem_to_draft_drafts .registration draft).mpr member
      have names : set.registration.map (·.name) =
          (script.toDraft.drafts .registration).map (·.name) :=
        Draft.lenient_rule_names checked .registration
      rw [names, held, ← named]
      exact .inl (List.mem_map_of_mem drafted)

theorem Draft.lenient_reached {draft : Draft} (checked : draft.check .lenient = .ok set)
    {scope : Scope} {rule : Rule} (member : rule ∈ set.rules scope) {formula : Formula}
    (body : rule.body = .ok formula) :
    ∀ path ∈ formula.fields, Reach.defect? scope (set.camper.map (·.name)) path = none := by
  have names : set.camper.map (·.name) = draft.camper.map (·.name) :=
    Draft.lenient_rule_names checked .camper
  rw [Draft.lenient_rules checked] at member
  obtain ⟨own, _, made⟩ := List.mem_map.mp member
  rw [names]
  exact Draft.body_reached (made ▸ body)

theorem Script.IsSound.total_again (isSound : script.IsSound)
    (checked : script.toDraft.check .lenient = .ok set) :
    (ofStatements set.statements).toDraft.total.getD Draft.defaultTotal = set.total := by
  change (ofStatements set.statements).total.getD _ = _
  rw [RuleSet.of_statements_statements]
  by_cases marked : set.total ∈ set.registration.map (·.name)
  · simp [marked]
  · rcases isSound.total_held checked with held | unmarked
    · exact absurd held marked
    · rw [if_neg marked, unmarked]
      rfl

theorem redrafts_checked (checked : script.toDraft.check .lenient = .ok set) (priced : set.Priced)
    (scope : Scope) :
    ((set.rules scope).map Rule.redraft).map
        (RuleDraft.checked scope (set.camper.map (·.name))) =
      (set.rules scope).map Rule.reread := by
  rw [List.map_map]
  refine List.map_congr_left fun rule member => ?_
  obtain ⟨formula, body⟩ := priced scope rule member
  exact RuleSet.redraft_checked body (Draft.lenient_reached checked member body)

theorem Script.IsSound.checked_again (isSound : script.IsSound)
    (checked : script.toDraft.check .lenient = .ok set) (priced : set.Priced) :
    (ofStatements set.statements).toDraft.check .lenient = .ok set.reread := by
  have names (scope : Scope) :
      Draft.checkNames scope [] ((ofStatements set.statements).toDraft.drafts scope) = .ok () := by
    rw [← Draft.lenient_names checked scope]
    apply Draft.check_names_congr
    rw [RuleSet.redrafts, RuleSet.redraft_names, Draft.lenient_rule_names checked scope]
  have camper : (ofStatements set.statements).toDraft.camper = set.camper.map Rule.redraft :=
    set.redrafts .camper
  have registration : (ofStatements set.statements).toDraft.registration =
      set.registration.map Rule.redraft := set.redrafts .registration
  have constants : (ofStatements set.statements).toDraft.constants = set.constants := by
    rw [to_draft_constants, RuleSet.of_statements_statements]
  have camperRules := redrafts_checked checked priced .camper
  have registrationRules := redrafts_checked checked priced .registration
  dsimp only [RuleSet.rules] at camperRules registrationRules
  rw [Draft.check_lenient names, camper, registration, RuleSet.redraft_names, constants,
    isSound.total_again checked, camperRules, registrationRules]
  rfl

end

end Tariff
