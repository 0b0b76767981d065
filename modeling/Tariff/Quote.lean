import Tariff.Json.Decimal
import Tariff.Named

set_option autoImplicit false

namespace Tariff

abbrev Amounts := Named (Option Decimal)

def Amounts.get? (amounts : Amounts) (rule : String) : Option Decimal :=
  (amounts.lookup rule).join

structure Quote where
  campers : List Amounts
  registration : Amounts
  total : Decimal
deriving DecidableEq, Repr

namespace Quote

def empty : Quote := ⟨[], [], .zero⟩

instance : Inhabited Quote := ⟨empty⟩

def registrationAmount? (quote : Quote) (rule : String) : Option Decimal :=
  quote.registration.get? rule

def camperAmount? (quote : Quote) (index : Nat) (rule : String) : Option Decimal :=
  (quote.campers[index]?).bind fun amounts => amounts.get? rule

def isComplete (quote : Quote) : Bool :=
  (quote.campers ++ [quote.registration]).all fun amounts =>
    amounts.all fun entry => entry.2.isSome

def amountToJson : Option Decimal → Json
  | some d => .ofDecimal d
  | none => .null

def amountsToJson (amounts : Amounts) : Json :=
  .object (amounts.map fun (rule, amount) => (rule, amountToJson amount))

def toJson (quote : Quote) : Json :=
  .object [("campers", .array (quote.campers.map amountsToJson)),
    ("registration", amountsToJson quote.registration), ("total", .ofDecimal quote.total)]

def amountsReader : Json.Reader Amounts :=
  Json.Reader.members [] fun levels amounts rule value => do
    let amount ← Json.Reader.optional Json.Reader.amount levels value
    return Named.put rule amount amounts

def jsonFields : List (Json.Reader.Field Quote) :=
  [.mk "campers" fun levels document quote => do
      return { quote with campers := ← Json.Reader.list amountsReader levels document },
    .mk "registration" fun levels document quote => do
      return { quote with registration := ← amountsReader levels document },
    .mk "total" fun levels document quote => do
      return { quote with total := ← Json.Reader.amount levels document }]

def reader : Json.Reader Quote := Json.Reader.record jsonFields empty some

end Quote

end Tariff
