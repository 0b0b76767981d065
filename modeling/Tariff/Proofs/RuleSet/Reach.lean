import Tariff.Proofs.Environment.Roots
import Tariff.Proofs.RuleSet.Names

set_option autoImplicit false

namespace Tariff

namespace Reach

-- The paths that are seen from each scope: none is a root alone, but for the number of campers.
inductive Sees (camperRules : List String) : Scope → String → Prop
  | registration {scope : Scope} (field : String) :
      Sees camperRules scope ("registration" ++ "." ++ field)
  | constant {scope : Scope} (key : String) : Sees camperRules scope ("pricing" ++ "." ++ key)
  | camper (field : String) : Sees camperRules .camper ("camper" ++ "." ++ field)
  | count : Sees camperRules .registration "camper_count"
  | sum {rule : String} (member : rule ∈ camperRules) :
      Sees camperRules .registration (Formula.sumRoot ++ "." ++ rule)

inductive Reaches (camperRules : List String) : Scope → String → Prop
  | registration {scope : Scope} {path : String} {rest : Path}
      (parts : Path.ofString path = "registration" :: rest) : Reaches camperRules scope path
  | constant {scope : Scope} {path : String} {rest : Path}
      (parts : Path.ofString path = "pricing" :: rest) : Reaches camperRules scope path
  | camper {path : String} {rest : Path} (parts : Path.ofString path = "camper" :: rest) :
      Reaches camperRules .camper path
  | count : Reaches camperRules .registration "camper_count"
  | sum {rule : String} (member : rule ∈ camperRules) :
      Reaches camperRules .registration (Formula.sumRoot ++ "." ++ rule)

theorem sum_path_parts (rule : String) :
    Path.ofString (Formula.sumRoot ++ "." ++ rule) = Formula.sumRoot :: Path.ofString rule := by
  have root : Path.ofString Formula.sumRoot = [Formula.sumRoot] :=
    Path.of_string_undotted _ (by decide)
  rw [Path.of_string_dot, root, List.singleton_append]

theorem sum_path_inj {rule other : String}
    (same : Formula.sumRoot ++ "." ++ rule = Formula.sumRoot ++ "." ++ other) : rule = other := by
  simpa [String.ext_iff] using same

theorem Reaches.sum_member {camperRules : List String} {scope : Scope} {path rule : String}
    (reaches : Reaches camperRules scope path) (isSum : path = Formula.sumRoot ++ "." ++ rule) :
    rule ∈ camperRules := by
  have root := isSum ▸ sum_path_parts rule
  cases reaches with
  | registration parts => exact absurd (List.cons.inj (parts.symm.trans root)).1 (by decide)
  | constant parts => exact absurd (List.cons.inj (parts.symm.trans root)).1 (by decide)
  | camper parts => exact absurd (List.cons.inj (parts.symm.trans root)).1 (by decide)
  | count =>
      rw [Path.of_string_undotted "camper_count" (by decide)] at root
      exact absurd (List.cons.inj root).1 (by decide)
  | sum member => exact sum_path_inj isSum ▸ member

theorem ends_in_dot {text : List Char} {dot : Char} {rest : List Char}
    (stopped : text.dropWhile (· != '.') = dot :: rest) : dot = '.' := by
  induction text with
  | nil => cases stopped
  | cons c later ih =>
      rw [List.dropWhile_cons] at stopped
      split at stopped
      · exact ih stopped
      · rename_i stops
        cases stopped
        simpa using stops

theorem split_dotted {path root rest : String} (parts : split path = (root, some rest)) :
    path = root ++ "." ++ rest := by
  unfold split at parts
  dsimp only at parts
  split at parts
  · cases parts
  · rename_i dot behind stopped
    have isDot := ends_in_dot stopped
    cases parts
    rw [String.ext_iff]
    have whole := List.takeWhile_append_dropWhile (p := (· != '.')) (l := path.toList)
    rw [stopped, isDot] at whole
    simp [whole]

theorem split_undotted {path root : String} (parts : split path = (root, none)) : root = path := by
  unfold split at parts
  dsimp only at parts
  split at parts
  · exact (congrArg Prod.fst parts).symm
  · cases parts

theorem sees_of_defect?_none {scope : Scope} {camperRules : List String} {path : String}
    (named : "" ∉ camperRules) (reached : defect? scope camperRules path = none) :
    Sees camperRules scope path := by
  unfold defect? at reached
  cases parts : split path with
  | mk root rest =>
      rw [parts] at reached
      dsimp only at reached
      cases rest with
      | none =>
          -- Only the number of campers is read by a path without a dot.
          have whole := split_undotted parts
          cases scope with
          | camper => simp at reached
          | registration =>
              by_cases isSum : root = Formula.sumRoot
              · simp [isSum, named, Formula.sumRoot] at reached
              · by_cases isCount : root = "camper_count"
                · rw [← whole, isCount]
                  exact .count
                · simp [isSum, isCount] at reached
      | some rest =>
          rw [split_dotted parts]
          by_cases isRegistration : root = "registration"
          · exact isRegistration ▸ .registration rest
          by_cases isConstant : root = "pricing"
          · exact isConstant ▸ .constant rest
          rw [if_neg (not_or.mpr ⟨isRegistration, isConstant⟩)] at reached
          cases scope with
          | camper =>
              have isCamper : root = "camper" := by simpa using reached
              exact isCamper ▸ .camper rest
          | registration =>
              by_cases isSum : root = Formula.sumRoot
              · have member : rest ∈ camperRules := by simpa [isSum] using reached
                exact isSum ▸ .sum member
              · simp [isSum] at reached

theorem Sees.reaches {camperRules : List String} {scope : Scope} {path : String}
    (sees : Sees camperRules scope path) : Reaches camperRules scope path := by
  have parts (root : String) (undotted : '.' ∉ root.toList) (field : String) :
      Path.ofString (root ++ "." ++ field) = root :: Path.ofString field := by
    rw [Path.of_string_dot, Path.of_string_undotted root undotted, List.singleton_append]
  cases sees with
  | registration field => exact .registration (parts "registration" (by decide) field)
  | constant key => exact .constant (parts "pricing" (by decide) key)
  | camper field => exact .camper (parts "camper" (by decide) field)
  | count => exact .count
  | sum member => exact .sum member

end Reach

def RuleSet.Reaching (set : RuleSet) : Prop :=
  ∀ scope, ∀ rule ∈ set.rules scope, ∀ formula, rule.body = .ok formula →
    ∀ path ∈ formula.fields, Reach.Reaches (set.camper.map (·.name)) scope path

namespace Draft

theorem check_names_nonempty (scope : Scope) (seen : List String) (drafts : List RuleDraft)
    (passed : checkNames scope seen drafts = .ok ()) : "" ∉ drafts.map (·.name) := by
  induction drafts generalizing seen with
  | nil => exact List.not_mem_nil
  | cons first rest ih =>
      unfold checkNames at passed
      split at passed
      · cases passed
      · rename_i notBlank
        split at passed
        · cases passed
        · split at passed
          · cases passed
          · intro member
            rcases List.mem_cons.mp member with same | later
            · have empty : first.name = "" := same.symm
              rw [empty] at notBlank
              exact notBlank rfl
            · exact ih (first.name :: seen) passed later

theorem body_reached {scope : Scope} {camperRules : List String} {draft : RuleDraft}
    {formula : Formula} (made : draft.body scope camperRules = .ok formula) :
    ∀ path ∈ formula.fields, Reach.defect? scope camperRules path = none := by
  unfold RuleDraft.body at made
  split at made
  · cases made
  · cases made
  · split at made
    · cases made
    · rename_i reached
      cases made
      exact List.findSome?_eq_none_iff.mp reached

theorem check_rules_reached (strictness : Strictness) (scope : Scope) (camperRules : List String)
    (drafts : List RuleDraft) (rules : List Rule)
    (passed : checkRules strictness scope camperRules drafts = .ok rules) :
    ∀ rule ∈ rules, ∀ formula, rule.body = .ok formula →
      ∀ path ∈ formula.fields, Reach.defect? scope camperRules path = none := by
  induction drafts generalizing rules with
  | nil =>
      cases passed
      intro rule member
      cases member
  | cons first rest ih =>
      obtain ⟨others, tail, made⟩ :=
        check_rules_cons strictness scope camperRules first rest rules passed
      subst made
      intro rule member
      rcases List.mem_cons.mp member with same | later
      · subst same
        exact fun formula made => body_reached made
      · exact ih others tail rule later

theorem check_sees (strictness : Strictness) (draft : Draft) (set : RuleSet)
    (passed : draft.check strictness = .ok set) {scope : Scope} {rule : Rule}
    (member : rule ∈ set.rules scope) {formula : Formula} (made : rule.body = .ok formula)
    {path : String} (field : path ∈ formula.fields) :
    Reach.Sees (set.camper.map (·.name)) scope path := by
  obtain ⟨camperNames, _, camperRules, registrationRules⟩ := check_parts strictness draft set passed
  have names := check_rules_names _ _ _ _ _ camperRules
  rw [names]
  refine Reach.sees_of_defect?_none (check_names_nonempty _ _ _ camperNames) ?_
  cases scope with
  | camper => exact check_rules_reached _ _ _ _ _ camperRules rule member formula made path field
  | registration =>
      exact check_rules_reached _ _ _ _ _ registrationRules rule member formula made path field

theorem check_reaching (strictness : Strictness) (draft : Draft) (set : RuleSet)
    (passed : draft.check strictness = .ok set) : set.Reaching :=
  fun _ _ member _ made _ field => (check_sees strictness draft set passed member made field).reaches

end Draft

namespace RuleSet

theorem mem_insert_name (name path : String) (names : List String) :
    path ∈ insertName name names ↔ path = name ∨ path ∈ names := by
  induction names with
  | nil => simp [insertName]
  | cons first rest ih =>
      unfold insertName
      split
      · exact List.mem_cons
      · split
        · rename_i same
          simp [same]
        · rw [List.mem_cons, List.mem_cons, ih]
          exact or_left_comm

theorem mem_insert_names (paths names : List String) (path : String) :
    path ∈ paths.foldl (fun found path => insertName path found) names ↔
      path ∈ paths ∨ path ∈ names := by
  induction paths generalizing names with
  | nil => simp
  | cons first rest ih =>
      rw [List.foldl_cons, ih, mem_insert_name, List.mem_cons, or_left_comm, or_assoc]

theorem mem_fields (set : RuleSet) (scope : Scope) (path : String) :
    path ∈ set.fields scope ↔
      ∃ rule ∈ set.rules scope, ∃ formula, rule.body = .ok formula ∧ path ∈ formula.fields := by
  unfold fields
  rw [mem_insert_names, List.mem_flatMap]
  simp only [List.not_mem_nil, or_false]
  refine exists_congr fun rule => and_congr_right fun _ => ?_
  cases rule.body with
  | ok formula => simp
  | error defect => simp

end RuleSet

end Tariff
