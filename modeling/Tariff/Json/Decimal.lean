import Tariff.Json.Reader
import Tariff.Decimal.Binary

/-! A number that is not whole is read from its text: from its written form where JSON stands for an
arbitrary value, and from its full text where an amount is expected. An amount is always written as a
binary number. -/

set_option autoImplicit false

namespace Tariff

namespace Json

def Number.toDecimal? : Number → Option Decimal
  | .whole value _ => Decimal.ofInt? value
  | .binary value => Decimal.ofText? value.jsonText

-- The amount that a number says: its text in full, without an exponent.
def Number.toAmount? : Number → Option Decimal
  | .whole value _ => Decimal.ofInt? value
  | .binary value => Decimal.ofText? value.fullText

def ofDecimal (d : Decimal) : Json :=
  match d.toBinary64? with
  | some value => .number (.binary value)
  | none => .null

def Reader.amount : Reader Decimal
  | _, .number value => orMismatch value.toAmount?
  | _, .string value => orMismatch (Decimal.ofText? value.toList)
  | _, document => .error document.mismatch
where
  orMismatch (read : Option Decimal) : Except Fault Decimal :=
    match read with
    | some d => .ok d
    | none => .error .mismatch

end Json

end Tariff
