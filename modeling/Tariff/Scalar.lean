import Tariff.Json.Decimal
import Tariff.Text.Blank

set_option autoImplicit false

namespace Tariff

inductive Comparison where
  | equal
  | unequal
  | identical
  | distinct
  | above
  | atLeast
  | below
  | atMost
deriving DecidableEq, Repr

def Comparison.symbol : Comparison → String
  | .equal => "=="
  | .unequal => "!="
  | .identical => "==="
  | .distinct => "!=="
  | .above => ">"
  | .atLeast => ">="
  | .below => "<"
  | .atMost => "<="

inductive Scalar where
  | null
  | bool (value : Bool)
  | number (value : Decimal)
  | text (value : String)
deriving DecidableEq, Repr

namespace Scalar

instance : Inhabited Scalar := ⟨.null⟩

def numberOfText? (text : String) : Option Decimal :=
  match Text.trim text.toList with
  | [] => some .zero
  | trimmed => Decimal.ofText? trimmed

def number? : Scalar → Option Decimal
  | .null => some .zero
  | .bool value => some (if value then .one else .zero)
  | .number value => some value
  | .text value => numberOfText? value

def truthy : Scalar → Bool
  | .null => false
  | .bool value => value
  | .number value => !value.isZero
  | .text value => value != ""

def same : Scalar → Scalar → Bool
  | .null, .null => true
  | .bool a, .bool b => a == b
  | .number a, .number b => a.same b
  | .text a, .text b => a == b
  | _, _ => false

-- Null is alike only to itself, texts are alike if they are the same, and other values if they
-- stand for the same number.
def alike : Scalar → Scalar → Bool
  | .null, .null => true
  | .null, _ => false
  | _, .null => false
  | .text a, .text b => a == b
  | a, b =>
      match a.number?, b.number? with
      | some x, some y => x.same y
      | _, _ => false

-- Two texts stand in the order of their characters, other values in that of their numbers.
def order? : Scalar → Scalar → Option Ordering
  | .text a, .text b => some (compareOfLessAndEq a b)
  | a, b =>
      match a.number?, b.number? with
      | some x, some y => some (x.order y)
      | _, _ => none

def compare? (comparison : Comparison) (a b : Scalar) : Option Bool :=
  match comparison with
  | .equal => some (a.alike b)
  | .unequal => some (!a.alike b)
  | .identical => some (a.same b)
  | .distinct => some (!a.same b)
  | .above => (a.order? b).map (· == .gt)
  | .atLeast => (a.order? b).map (· != .lt)
  | .below => (a.order? b).map (· == .lt)
  | .atMost => (a.order? b).map (· != .gt)

def compare (comparison : Comparison) (a b : Scalar) : Bool :=
  (a.compare? comparison b).getD false

def render : Scalar → String
  | .null => "null"
  | .bool true => "true"
  | .bool false => "false"
  | .number value => value.render
  | .text value => "\"" ++ value ++ "\""

instance : ToString Scalar := ⟨render⟩

def ofJson? : Json → Option Scalar
  | .null => some .null
  | .bool value => some (.bool value)
  | .number value => value.toDecimal?.map .number
  | .string value => some (.text value)
  | .array _ => none
  | .object _ => none

def numberToJson (d : Decimal) : Json :=
  if d.isWhole then
    match d.toInt64?.bind Json.ofInt? with
    | some json => json
    | none => Json.ofDecimal d
  else Json.ofDecimal d

def toJson : Scalar → Json
  | .null => .null
  | .bool value => .bool value
  | .number value => numberToJson value
  | .text value => .string value

theorem same_refl (a : Scalar) : a.same a = true := by
  cases a <;> simp [same, Decimal.same_refl]

end Scalar

end Tariff
