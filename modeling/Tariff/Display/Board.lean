import Tariff.Display.Currency
import Tariff.Quote

set_option autoImplicit false

namespace Tariff.Display

inductive Source where
  | constant (key : String)
  | registration (rule : String)
  | camper (index : Nat) (rule : String)
  | total
deriving DecidableEq, Repr

structure Slot where
  name : String
  source : Source
deriving DecidableEq, Repr

structure Board where
  slots : List Slot
  constants : Json.Object
  currency : Currency

namespace Board

def blank (constants : Json.Object) : Board := ⟨[], constants, .dollar⟩

def constantMark : String := "pricing_"

def constantSlot? (key : String) (value : Json) : Option Slot :=
  match value with
  | .number _ => some ⟨constantMark ++ key, .constant key⟩
  | _ => none

def ofConstants (constants : Json.Object) : Board :=
  { blank constants with
    slots := constants.members.filterMap fun (key, value) => constantSlot? key value }

def withCurrency (board : Board) (currency : Currency) : Board :=
  { board with currency := currency }

def addSlot (board : Board) (name : String) (source : Source) : Board :=
  { board with slots := board.slots ++ [⟨name, source⟩] }

def constant? (board : Board) (key : String) : Option Decimal :=
  match board.constants.get? key with
  | some (.number value) => value.toDecimal?.map Decimal.abs
  | _ => none

def amount? (board : Board) (quote : Quote) : Source → Option Decimal
  | .constant key => board.constant? key
  | .registration rule => quote.registrationAmount? rule
  | .camper index rule => quote.camperAmount? index rule
  | .total => some quote.total

-- What each slot shows. Of two slots of one name the later one counts, in the place of the earlier.
def render (board : Board) (quote : Quote) : Named (Option String) :=
  Named.ofList (board.slots.map fun slot =>
    (slot.name, (board.amount? quote slot.source).map board.currency.format))

end Board

end Tariff.Display
