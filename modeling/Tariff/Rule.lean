import Tariff.Formula.Encoding

set_option autoImplicit false

namespace Tariff

inductive Scope where
  | camper
  | registration
deriving DecidableEq, Repr

def Scope.name : Scope → String
  | .camper => "camper"
  | .registration => "registration"

inductive Price where
  | missing
  | malformed (fault : Formula.Fault)
  | formula (value : Formula)
deriving Repr

def Price.ofJson (json : Json) : Price :=
  match Formula.ofJson json with
  | .ok value => .formula value
  | .error fault => .malformed fault

structure RuleDraft where
  name : String
  label : Option String
  price : Price
deriving Repr

structure Draft where
  camper : List RuleDraft
  registration : List RuleDraft
  constants : Json.Object
  total : Option String

namespace Draft

def empty : Draft := ⟨[], [], .empty, none⟩

def add (draft : Draft) (scope : Scope) (rule : RuleDraft) : Draft :=
  match scope with
  | .camper => { draft with camper := draft.camper ++ [rule] }
  | .registration => { draft with registration := draft.registration ++ [rule] }

def addAll (draft : Draft) (rules : List (Scope × RuleDraft)) : Draft :=
  rules.foldl (fun draft (scope, rule) => draft.add scope rule) draft

def setConstant (draft : Draft) (key : String) (value : Json) : Draft :=
  { draft with constants := draft.constants.insert key value }

def setConstants (draft : Draft) (constants : Json.Object) : Draft :=
  constants.members.foldl (fun draft (key, value) => draft.setConstant key value) draft

def setTotal (draft : Draft) (name : String) : Draft := { draft with total := some name }

end Draft

end Tariff
