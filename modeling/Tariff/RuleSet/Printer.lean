import Tariff.RuleSet.Basic
import Tariff.Formula.Printer

set_option autoImplicit false

namespace Tariff.RuleSet

def constantLine (key : String) (value : Json) : String :=
  let line := "pricing " ++ key ++ " = " ++ value.text ++ "\n"
  match value with
  | .object _ | .array _ => "# " ++ line
  | _ => line

def labelText : Option String → String
  | none => ""
  | some label => " " ++ Text.quote label

def bodyText (rule : Rule) : String :=
  match rule.body with
  | .ok formula => formula.render
  | .error defect => "null  # defective: " ++ defect.message rule.name

def ruleLine (scope : Scope) (isTotal : Bool) (rule : Rule) : String :=
  scope.name ++ " " ++ rule.name ++ labelText rule.label ++
    (if isTotal then " (total)" else "") ++ ": " ++ bodyText rule ++ "\n"

def render (set : RuleSet) : String :=
  String.join (set.constants.members.map fun (key, value) => constantLine key value) ++
    String.join (set.camper.map (ruleLine .camper false)) ++
    String.join (set.registration.map fun rule =>
      ruleLine .registration (rule.name == set.total) rule)

instance : ToString RuleSet := ⟨render⟩

end Tariff.RuleSet
