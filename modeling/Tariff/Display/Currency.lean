import Tariff.Decimal.Text

set_option autoImplicit false

namespace Tariff.Display

structure Currency where
  symbol : String
deriving DecidableEq, Repr

namespace Currency

def dollar : Currency := ⟨"$"⟩

instance : Inhabited Currency := ⟨dollar⟩

def amountText (amount : Decimal) : String :=
  let size := amount.abs
  if size.isWhole then size.truncate.normalize.render
  else ((size.roundTo .toEven 2).padTo 2).render

def format (currency : Currency) (amount : Decimal) : String :=
  let sign := if amount.negative && !amount.isZero then "-" else ""
  sign ++ currency.symbol ++ amountText amount

end Currency

end Tariff.Display
