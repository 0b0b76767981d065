import Tariff.Rule
import Tariff.Text.Quoted

/-! A rule keeps its place even if it has a defect, so that its amount is there as one that is not
available. A lenient check leaves defects with their rules; names are errors in either check. -/

set_option autoImplicit false

namespace Tariff

inductive Defect where
  | missingFormula
  | malformedFormula (fault : Formula.Fault)
  | unreachableField (scope : Scope) (path : String)
  | unknownSum (rule : String)
deriving DecidableEq, Repr

def Defect.message (rule : String) : Defect → String
  | .missingFormula => "rule '" ++ rule ++ "' has no price expression"
  | .malformedFormula fault =>
      "malformed expression in rule '" ++ rule ++ "': " ++ fault.message
  | .unreachableField scope path =>
      "field '" ++ path ++ "' is not reachable from " ++ scope.name ++ " rule '" ++ rule ++ "'"
  | .unknownSum reference =>
      "rule '" ++ rule ++ "' aggregates unknown camper rule '" ++ reference ++ "'"

structure Rule where
  name : String
  label : Option String
  body : Except Defect Formula

def Rule.formula? (rule : Rule) : Option Formula := rule.body.toOption

def Rule.defect? (rule : Rule) : Option Defect :=
  match rule.body with
  | .ok _ => none
  | .error defect => some defect

structure RuleSet where
  camper : List Rule
  registration : List Rule
  constants : Json.Object
  total : String

namespace RuleSet

instance : Inhabited RuleSet := ⟨⟨[], [], .empty, ""⟩⟩

def rules (set : RuleSet) : Scope → List Rule
  | .camper => set.camper
  | .registration => set.registration

def rule? (set : RuleSet) (scope : Scope) (name : String) : Option Rule :=
  (set.rules scope).find? fun rule => rule.name == name

structure DefectiveRule where
  scope : Scope
  name : String
  defect : Defect
deriving DecidableEq, Repr

def DefectiveRule.message (rule : DefectiveRule) : String := rule.defect.message rule.name

def defectsOf (scope : Scope) (rules : List Rule) : List DefectiveRule :=
  rules.filterMap fun rule => rule.defect?.map fun defect => ⟨scope, rule.name, defect⟩

def defects (set : RuleSet) : List DefectiveRule :=
  defectsOf .camper set.camper ++ defectsOf .registration set.registration

def insertName (name : String) : List String → List String
  | [] => [name]
  | first :: rest =>
      if name < first then name :: first :: rest
      else if name = first then first :: rest
      else first :: insertName name rest

def fields (set : RuleSet) (scope : Scope) : List String :=
  let paths := (set.rules scope).flatMap fun rule =>
    match rule.body with
    | .ok formula => formula.fields
    | .error _ => []
  paths.foldl (fun found path => insertName path found) []

inductive Error where
  | emptyName (scope : Scope)
  | dottedName (scope : Scope) (name : String)
  | duplicateName (scope : Scope) (name : String)
  | defective (rule : DefectiveRule)
deriving DecidableEq, Repr

def Error.message : Error → String
  | .emptyName scope => scope.name ++ " rule with an empty name"
  | .dottedName scope name => scope.name ++ " rule name '" ++ name ++ "' contains '.'"
  | .duplicateName scope name => "duplicate " ++ scope.name ++ " rule name '" ++ name ++ "'"
  | .defective rule => rule.message

end RuleSet

-- Reach: every formula sees the registration and the constants, that of a camper rule sees its camper,
-- and that of a registration rule sees the number of campers and the sums of camper rules.
namespace Reach

def split (path : String) : String × Option String :=
  let root := path.toList.takeWhile (· != '.')
  match path.toList.dropWhile (· != '.') with
  | [] => (path, none)
  | _ :: rest => (String.ofList root, some (String.ofList rest))

def defect? (scope : Scope) (camperRules : List String) (path : String) : Option Defect :=
  let (root, rest) := split path
  let require (reached : Bool) : Option Defect :=
    if reached then none else some (.unreachableField scope path)
  if root = "registration" ∨ root = "pricing" then require rest.isSome
  else
    match scope with
    | .camper => require (root = "camper" ∧ rest.isSome)
    | .registration =>
        if root = Formula.sumRoot then
          let reference := rest.getD ""
          if reference ∈ camperRules then none else some (.unknownSum reference)
        else require (root = "camper_count" ∧ rest.isNone)

end Reach

inductive Strictness where
  | lenient
  | strict
deriving DecidableEq, Repr

def RuleDraft.body (scope : Scope) (camperRules : List String) (rule : RuleDraft) :
    Except Defect Formula :=
  match rule.price with
  | .missing => .error .missingFormula
  | .malformed fault => .error (.malformedFormula fault)
  | .formula value =>
      match value.fields.findSome? (Reach.defect? scope camperRules) with
      | some defect => .error defect
      | none => .ok value

namespace Draft

def checkNames (scope : Scope) (seen : List String) : List RuleDraft → Except RuleSet.Error Unit
  | [] => .ok ()
  | rule :: rest =>
      if rule.name.toList.all Text.isBlank then .error (.emptyName scope)
      else if '.' ∈ rule.name.toList then .error (.dottedName scope rule.name)
      else if rule.name ∈ seen then .error (.duplicateName scope rule.name)
      else checkNames scope (rule.name :: seen) rest

def checkRules (strictness : Strictness) (scope : Scope) (camperRules : List String) :
    List RuleDraft → Except RuleSet.Error (List Rule)
  | [] => .ok []
  | rule :: rest =>
      match strictness, rule.body scope camperRules with
      | .strict, .error defect => .error (.defective ⟨scope, rule.name, defect⟩)
      | _, body => do
          let rules ← checkRules strictness scope camperRules rest
          return ⟨rule.name, rule.label, body⟩ :: rules

def defaultTotal : String := "total"

def check (strictness : Strictness) (draft : Draft) : Except RuleSet.Error RuleSet := do
  checkNames .camper [] draft.camper
  checkNames .registration [] draft.registration
  let camperRules := draft.camper.map (·.name)
  let camper ← checkRules strictness .camper camperRules draft.camper
  let registration ← checkRules strictness .registration camperRules draft.registration
  return ⟨camper, registration, draft.constants, draft.total.getD defaultTotal⟩

end Draft

end Tariff
