import Tariff.Decimal.Arithmetic

set_option autoImplicit false

namespace Tariff.Decimal

inductive TextError where
  | malformed
  | tooManyDigits
  | overflowAfterRounding
deriving DecidableEq, Repr

def TextError.message : TextError → String
  | .malformed => "Invalid decimal: unknown character"
  | .tooManyDigits => "Invalid decimal: overflow from too many digits"
  | .overflowAfterRounding => "Invalid decimal: overflow from mantissa after rounding"

def isDigit (c : Char) : Bool := '0' ≤ c && c ≤ '9'

def digitValue (c : Char) : Nat := c.toNat - '0'.toNat

def digitsValue (digits : List Char) : Nat :=
  digits.foldl (fun value c => value * 10 + digitValue c) 0

structure Reading where
  negative : Bool
  mantissa : Nat
  scale : Nat
  pointSeen : Bool
  digitSeen : Bool

def Reading.finish (r : Reading) : Except TextError Decimal :=
  if r.digitSeen then
    match ofParts? (r.negative && r.mantissa != 0) r.mantissa r.scale with
    | some d => .ok d
    | none => .error .tooManyDigits
  else .error .malformed

-- The digit after the last that there is room for rounds, half up; the rest is looked at only for
-- characters that no number holds.
def Reading.round (r : Reading) (digit : Nat) (rest : List Char) : Except TextError Decimal :=
  if rest.all fun c => isDigit c || c == '_' then
    if digit < 5 then r.finish
    else if r.mantissa + 1 ≤ maxMantissa then { r with mantissa := r.mantissa + 1 }.finish
    else if r.scale = 0 then .error .overflowAfterRounding
    else { r with mantissa := (r.mantissa + 5) / 10, scale := r.scale - 1 }.finish
  else .error .malformed

def longMantissa : Nat := 1844674407370954906

-- A low line where a digit would be rounded stands for the digit zero, if the last digit was read
-- as one of a short number; in a long one it is skipped as anywhere else.
def Reading.roundsLowLine (r : Reading) : Bool :=
  r.pointSeen && maxScale ≤ r.scale && r.mantissa / 10 < longMantissa

def Reading.digits (r : Reading) : List Char → Except TextError Decimal
  | [] => r.finish
  | c :: rest =>
      if isDigit c then
        let longer := r.mantissa * 10 + digitValue c
        if r.pointSeen && maxScale ≤ r.scale then r.round (digitValue c) rest
        else if longer ≤ maxMantissa then
          let scale := if r.pointSeen then r.scale + 1 else r.scale
          { r with mantissa := longer, scale := scale, digitSeen := true }.digits rest
        else if r.pointSeen then r.round (digitValue c) rest
        else .error .tooManyDigits
      else if c = '.' && !r.pointSeen then { r with pointSeen := true }.digits rest
      else if c = '_' && r.digitSeen then
        if r.roundsLowLine then r.round 0 rest else r.digits rest
      else .error .malformed

def plain? (text : List Char) : Except TextError Decimal :=
  match text with
  | '-' :: rest => Reading.digits ⟨true, 0, 0, false, false⟩ rest
  | '+' :: rest => Reading.digits ⟨false, 0, 0, false, false⟩ rest
  | rest => Reading.digits ⟨false, 0, 0, false, false⟩ rest

def exponent? (text : List Char) : Option Nat :=
  let digits := match text with
    | '+' :: rest => rest
    | rest => rest
  if digits.isEmpty || !digits.all isDigit then none
  else
    let value := digitsValue digits
    if value ≤ 4294967295 then some value else none

def shiftDown? (d : Decimal) (exponent : Nat) : Option Decimal :=
  if maxScale < exponent then none
  else
    let shorter := d.shorten .awayFromZero (maxScale - exponent)
    ofParts? d.negative shorter.mantissa (shorter.scale + exponent)

def shiftUp? (d : Decimal) (exponent : Nat) : Option Decimal :=
  if exponent ≤ d.scale then ofParts? d.negative d.mantissa (d.scale - exponent)
  else if maxScale < exponent then none
  else
    let steps := if exponent ≤ 19 then [exponent] else [19, exponent - 19]
    (steps.foldlM (fun product step => (ofNat? (tenTo step)).bind (mul? product)) d).map normalize

def scientific? (text : List Char) : Option Decimal :=
  let isMark := fun c => c == 'e' || c == 'E'
  match text.dropWhile fun c => !isMark c with
  | [] => none
  | _ :: power =>
      match plain? (text.takeWhile fun c => !isMark c) with
      | .error _ => none
      | .ok base =>
          match power with
          | '-' :: rest => (exponent? rest).bind base.shiftDown?
          | rest => (exponent? rest).bind base.shiftUp?

def ofText? (text : List Char) : Option Decimal :=
  match plain? text with
  | .ok d => some d
  | .error _ => scientific? text

def padLeft (width : Nat) (digits : List Char) : List Char :=
  List.replicate (width - digits.length) '0' ++ digits

def render (d : Decimal) : String :=
  let digits := padLeft (d.scale + 1) (Nat.toDigits 10 d.mantissa)
  let whole := digits.take (digits.length - d.scale)
  let fraction := digits.drop (digits.length - d.scale)
  let sign := if d.negative then ['-'] else []
  String.ofList (sign ++ whole ++ (if d.scale = 0 then [] else '.' :: fraction))

instance : ToString Decimal := ⟨render⟩

end Tariff.Decimal
