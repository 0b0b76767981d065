import Tariff.RuleSet.Basic

set_option autoImplicit false

namespace Tariff

structure RuleEntry where
  label : Option String
  name : String
  formula : Json

structure RuleEntries where
  camper : List RuleEntry
  registration : List RuleEntry

structure Configuration where
  dataSchema : Json
  uiSchema : Json
  event : Json.Object
  rules : RuleEntries
  constants : Json.Object

namespace RuleEntry

def toDraft (entry : RuleEntry) : RuleDraft := ⟨entry.name, entry.label, .ofJson entry.formula⟩

def toJson (entry : RuleEntry) : Json :=
  let label := match entry.label with
    | some label => [("label", Json.string label)]
    | none => []
  .object (label ++ [("var", .string entry.name), ("exp", entry.formula)])

structure Partial where
  label : Option String
  name : Option String
  formula : Option Json

def jsonFields : List (Json.Reader.Field Partial) :=
  [.mk "label" fun levels document found => do
      return { found with label := ← Json.Reader.optional Json.Reader.string levels document },
    .mk "var" fun levels document found => do
      return { found with name := some (← Json.Reader.string levels document) },
    .mk "exp" fun levels document found => do
      return { found with formula := some (← Json.Reader.json levels document) }]

def Partial.finish (found : Partial) : Option RuleEntry := do
  return ⟨found.label, ← found.name, ← found.formula⟩

def reader : Json.Reader RuleEntry :=
  Json.Reader.record jsonFields ⟨none, none, none⟩ Partial.finish

end RuleEntry

namespace RuleEntries

def empty : RuleEntries := ⟨[], []⟩

def toJson (entries : RuleEntries) : Json :=
  .object [("camper", .array (entries.camper.map RuleEntry.toJson)),
    ("registration", .array (entries.registration.map RuleEntry.toJson))]

def jsonFields : List (Json.Reader.Field RuleEntries) :=
  [.mk "camper" fun levels document entries => do
      return { entries with camper := ← Json.Reader.list RuleEntry.reader levels document },
    .mk "registration" fun levels document entries => do
      return { entries with registration := ← Json.Reader.list RuleEntry.reader levels document }]

def reader : Json.Reader RuleEntries := Json.Reader.record jsonFields empty some

end RuleEntries

namespace Configuration

def empty : Configuration := ⟨.null, .null, .empty, .empty, .empty⟩

def toJson (configuration : Configuration) : Json :=
  .object [("dataSchema", configuration.dataSchema), ("uiSchema", configuration.uiSchema),
    ("event", configuration.event.toJson), ("pricingLogic", configuration.rules.toJson),
    ("pricing", configuration.constants.toJson)]

def jsonFields : List (Json.Reader.Field Configuration) :=
  [.mk "dataSchema" fun levels document configuration => do
      return { configuration with dataSchema := ← Json.Reader.json levels document },
    .mk "uiSchema" fun levels document configuration => do
      return { configuration with uiSchema := ← Json.Reader.json levels document },
    .mk "event" fun levels document configuration => do
      return { configuration with event := ← Json.Reader.object levels document },
    .mk "pricingLogic" fun levels document configuration => do
      return { configuration with rules := ← RuleEntries.reader levels document },
    .mk "pricing" fun levels document configuration => do
      return { configuration with constants := ← Json.Reader.object levels document }]

def reader : Json.Reader Configuration := Json.Reader.record jsonFields empty some

def toDraft (configuration : Configuration) : Draft :=
  let rules := configuration.rules.camper.map (fun entry => (Scope.camper, entry.toDraft)) ++
    configuration.rules.registration.map (fun entry => (Scope.registration, entry.toDraft))
  (Draft.empty.addAll rules).setConstants configuration.constants

end Configuration

def RuleSet.ofConfiguration (configuration : Configuration) : Except RuleSet.Error RuleSet :=
  configuration.toDraft.check .lenient

end Tariff
