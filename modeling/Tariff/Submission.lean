import Tariff.Pricing

set_option autoImplicit false

namespace Tariff

structure Submission where
  form : Form
  quote : Quote

structure Receipt where
  status : Nat
  body : String
deriving DecidableEq, Repr

def Receipt.isSuccess (receipt : Receipt) : Bool := 200 ≤ receipt.status && receipt.status < 300

structure TotalMismatch where
  submitted : Decimal
  computed : Decimal
deriving DecidableEq, Repr

def TotalMismatch.message (mismatch : TotalMismatch) : String :=
  "submitted total " ++ mismatch.submitted.render ++ " does not match computed total " ++
    mismatch.computed.render

def RuleSet.verify (rules : RuleSet) (submission : Submission) : Except TotalMismatch Quote :=
  let computed := rules.price submission.form
  let submitted := Pricing.toAmount submission.quote.total
  if submitted.same computed.total then .ok computed
  else .error ⟨submitted, computed.total⟩

namespace Submission

def toJson (submission : Submission) : Json :=
  .object [("formData", submission.form.toJson), ("pricingResults", submission.quote.toJson)]

structure Partial where
  form : Option Form
  quote : Option Quote

def jsonFields : List (Json.Reader.Field Partial) :=
  [.mk "formData" fun levels document found => do
      return { found with form := some (← Form.reader levels document) },
    .mk "pricingResults" fun levels document found => do
      return { found with quote := some (← Quote.reader levels document) }]

def Partial.finish (found : Partial) : Option Submission := do
  return ⟨← found.form, ← found.quote⟩

def reader : Json.Reader Submission := Json.Reader.record jsonFields ⟨none, none⟩ Partial.finish

end Submission

end Tariff
