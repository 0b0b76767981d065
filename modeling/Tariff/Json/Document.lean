import Tariff.Json.Text
import Tariff.Binary64.Scientific

/-! JSON text as far as it can be read. A document keeps repeated keys and holds a mark where the text
breaks off or goes wrong, so whoever takes a value out of it, from left to right, meets the first fault
where it stands. Skipping a value is more lenient than taking it. -/

set_option autoImplicit false

namespace Tariff.Json

inductive Fault where
  | cutShort
  | mismatch
  | malformed
deriving DecidableEq, Repr

-- The fault met when a broken part is taken, and when it is skipped.
structure Break where
  taken : Fault
  skipped : Fault
deriving DecidableEq, Repr

def Break.same (fault : Fault) : Break := ⟨fault, fault⟩

mutual

inductive Document where
  | null
  | bool (value : Bool)
  | number (value : Number)
  | string (value : String)
  -- A number or a string that can be skipped but has no value.
  | unreadable
  | array (items : Document.Items)
  | object (members : Document.Members)
  | broken (cause : Break)

inductive Document.Items where
  | closed
  | broken (cause : Break)
  | item (head : Document) (tail : Document.Items)

-- A key with a surrogate that stands alone can be skipped but has no value.
inductive Document.Members where
  | closed
  | broken (cause : Break)
  | member (key : Option String) (value : Document) (tail : Document.Members)

end

namespace Document

def isSpace (c : Char) : Bool := c == ' ' || c == '\n' || c == '\t' || c == '\r'

def skipSpace (text : List Char) : List Char := text.dropWhile isSpace

inductive StringEnd where
  | closed (value : Option (List Char)) (rest : List Char)
  | broken (cause : Break)

def StringEnd.push (c : Char) : StringEnd → StringEnd
  | .closed value rest => .closed (value.map (c :: ·)) rest
  | .broken cause => .broken cause

def StringEnd.spoil : StringEnd → StringEnd
  | .closed _ rest => .closed none rest
  | .broken cause => .broken ⟨.malformed, cause.skipped⟩

def StringEnd.spoilIf (alone : Bool) (result : StringEnd) : StringEnd :=
  if alone then result.spoil else result

def hexValue? (c : Char) : Option Nat :=
  if '0' ≤ c && c ≤ '9' then some (c.toNat - '0'.toNat)
  else if 'a' ≤ c && c ≤ 'f' then some (c.toNat - 'a'.toNat + 10)
  else if 'A' ≤ c && c ≤ 'F' then some (c.toNat - 'A'.toNat + 10)
  else none

def hexUnit? (a b c d : Char) : Option Nat :=
  match hexValue? a, hexValue? b, hexValue? c, hexValue? d with
  | some a, some b, some c, some d => some (((a * 16 + b) * 16 + c) * 16 + d)
  | _, _, _, _ => none

def isLeading (unit : Nat) : Bool := 0xD800 ≤ unit && unit ≤ 0xDBFF

def isTrailing (unit : Nat) : Bool := 0xDC00 ≤ unit && unit ≤ 0xDFFF

def ofSurrogates (leading trailing : Nat) : Char :=
  Char.ofNat (0x10000 + (leading - 0xD800) * 0x400 + (trailing - 0xDC00))

def escaped? (c : Char) : Option Char :=
  if c = '"' then some '"'
  else if c = '\\' then some '\\'
  else if c = '/' then some '/'
  else if c = 'b' then some '\x08'
  else if c = 'f' then some '\x0c'
  else if c = 'n' then some '\n'
  else if c = 'r' then some '\r'
  else if c = 't' then some '\t'
  else none

-- Fewer than four characters of a unit are left: they are too few only if they are fewer than four
-- bytes.
def shortUnit (rest : List Char) : StringEnd :=
  if rest.foldl (fun bytes c => bytes + c.utf8Size) 0 < 4 then .broken (.same .cutShort)
  else .broken (.same .malformed)

def paired? (leading : Option Nat) (unit : Nat) : Option Char :=
  match leading with
  | some first => if isTrailing unit then some (ofSurrogates first unit) else none
  | none => none

def readString : Option Nat → List Char → StringEnd
  | _, [] => .broken (.same .cutShort)
  | leading, '"' :: rest => .closed (if leading.isSome then none else some []) rest
  | leading, '\\' :: 'u' :: a :: b :: c :: d :: rest =>
      match hexUnit? a b c d with
      | none => .broken (.same .malformed)
      | some unit =>
          match paired? leading unit with
          | some meant => (readString none rest).push meant
          | none =>
              if isLeading unit then (readString (some unit) rest).spoilIf leading.isSome
              else if isTrailing unit then (readString none rest).spoil
              else ((readString none rest).push (Char.ofNat unit)).spoilIf leading.isSome
  | _, '\\' :: 'u' :: short => shortUnit short
  | _, ['\\'] => .broken (.same .cutShort)
  | leading, '\\' :: c :: rest =>
      match escaped? c with
      | some meant => ((readString none rest).push meant).spoilIf leading.isSome
      | none => .broken (.same .malformed)
  | leading, c :: rest =>
      if c < ' ' then .broken (.same .malformed)
      else ((readString none rest).push c).spoilIf leading.isSome

abbrev Token := Document × Option (List Char)

def brokenToken (cause : Break) : Token := (.broken cause, none)

-- Digits that are required here: the end of the text instead is a fault of its own kind only if the
-- number is taken.
def missingDigits (rest : List Char) : Token :=
  if rest.isEmpty then brokenToken ⟨.cutShort, .malformed⟩ else brokenToken (.same .malformed)

def binaryNumber (negative : Bool) (whole fraction : List Char) (exponent : Int) : Document :=
  match Binary64.ofDigits? negative whole fraction exponent with
  | some value => .number (.binary value)
  | none => .unreadable

-- A whole number is one of 64 bits if it fits, but negative zero is a binary number.
def wholeNumber (negative : Bool) (digits : List Char) : Document :=
  let size := Decimal.digitsValue digits
  let value : Int := if negative then -(size : Int) else size
  if isWord : IsWord value ∧ ¬ (negative ∧ size = 0) then .number (.whole value isWord.1)
  else binaryNumber negative digits [] 0

def readExponent (negative : Bool) (whole fraction : List Char) (plain : Document)
    (text : List Char) : Token :=
  match text with
  | mark :: rest =>
      if mark = 'e' ∨ mark = 'E' then
        let (below, rest) := match rest with
          | '+' :: rest => (false, rest)
          | '-' :: rest => (true, rest)
          | rest => (false, rest)
        let power := rest.takeWhile Decimal.isDigit
        let behind := rest.dropWhile Decimal.isDigit
        if power.isEmpty then missingDigits behind
        else
          let size : Int := Decimal.digitsValue power
          (binaryNumber negative whole fraction (if below then -size else size), some behind)
      else (plain, some text)
  | [] => (plain, some [])

def readFraction (negative : Bool) (whole : List Char) (text : List Char) : Token :=
  match text with
  | '.' :: rest =>
      let fraction := rest.takeWhile Decimal.isDigit
      let behind := rest.dropWhile Decimal.isDigit
      if fraction.isEmpty then missingDigits behind
      else readExponent negative whole fraction (binaryNumber negative whole fraction 0) behind
  | rest => readExponent negative whole [] (wholeNumber negative whole) rest

def readNumber (negative : Bool) (text : List Char) : Token :=
  let whole := text.takeWhile Decimal.isDigit
  let behind := text.dropWhile Decimal.isDigit
  match whole with
  | [] => missingDigits behind
  | '0' :: _ :: _ => brokenToken (.same .malformed)
  | _ => readFraction negative whole behind

def readWord (meant : Document) : List Char → List Char → Token
  | [], rest => (meant, some rest)
  | _ :: _, [] => brokenToken (.same .cutShort)
  | expected :: letters, c :: rest =>
      if c = expected then readWord meant letters rest else brokenToken (.same .malformed)

-- Values. Each call reads a character or stands directly behind one that was read, so twice the length
-- of the text is fuel enough.
mutual

def readValue : Nat → List Char → Token
  | 0, _ => brokenToken (.same .cutShort)
  | fuel + 1, text =>
      match skipSpace text with
      | [] => brokenToken (.same .cutShort)
      | '"' :: rest =>
          match readString none rest with
          | .closed (some value) rest => (.string (String.ofList value), some rest)
          | .closed none rest => (.unreadable, some rest)
          | .broken cause => brokenToken cause
      | '[' :: rest =>
          match skipSpace rest with
          | [] => (.array (.broken (.same .cutShort)), none)
          | ']' :: rest => (.array .closed, some rest)
          | rest =>
              let (items, rest) := readItems fuel rest
              (.array items, rest)
      | '\x7b' :: rest =>
          match skipSpace rest with
          | [] => (.object (.broken (.same .cutShort)), none)
          | '\x7d' :: rest => (.object .closed, some rest)
          | rest =>
              let (members, rest) := readMembers fuel rest
              (.object members, rest)
      | '-' :: rest => readNumber true rest
      | 'n' :: rest => readWord .null ['u', 'l', 'l'] rest
      | 't' :: rest => readWord (.bool true) ['r', 'u', 'e'] rest
      | 'f' :: rest => readWord (.bool false) ['a', 'l', 's', 'e'] rest
      | c :: rest =>
          if Decimal.isDigit c then readNumber false (c :: rest)
          else brokenToken (.same .malformed)

def readItems : Nat → List Char → Items × Option (List Char)
  | 0, _ => (.broken (.same .cutShort), none)
  | fuel + 1, text =>
      match readValue fuel text with
      | (head, none) => (.item head (.broken (.same .malformed)), none)
      | (head, some rest) =>
          match skipSpace rest with
          | [] => (.item head (.broken (.same .cutShort)), none)
          | ']' :: rest => (.item head .closed, some rest)
          | ',' :: rest =>
              let (tail, rest) := readItems fuel rest
              (.item head tail, rest)
          | _ => (.item head (.broken (.same .malformed)), none)

def readMembers : Nat → List Char → Members × Option (List Char)
  | 0, _ => (.broken (.same .cutShort), none)
  | fuel + 1, text =>
      match skipSpace text with
      | [] => (.broken (.same .cutShort), none)
      | '"' :: rest =>
          match readString none rest with
          | .broken cause => (.broken cause, none)
          | .closed key rest =>
              let key := key.map String.ofList
              match skipSpace rest with
              | [] => (.member key (.broken (.same .cutShort)) .closed, none)
              | ':' :: rest =>
                  match readValue fuel rest with
                  | (value, none) => (.member key value .closed, none)
                  | (value, some rest) =>
                      match skipSpace rest with
                      | [] => (.member key value (.broken (.same .cutShort)), none)
                      | '\x7d' :: rest => (.member key value .closed, some rest)
                      | ',' :: rest =>
                          let (tail, rest) := readMembers fuel rest
                          (.member key value tail, rest)
                      | _ => (.member key value (.broken (.same .malformed)), none)
              | _ => (.member key (.broken (.same .malformed)) .closed, none)
      | _ => (.broken (.same .malformed), none)

end

def ofChars (text : List Char) : Token := readValue (2 * text.length + 2) text

mutual

def ofJson : Json → Document
  | .null => .null
  | .bool value => .bool value
  | .number value => .number value
  | .string value => .string value
  | .array items => .array (ofItems items)
  | .object members => .object (ofMembers members)

def ofItems : List Json → Items
  | [] => .closed
  | item :: rest => .item (ofJson item) (ofItems rest)

def ofMembers : List (String × Json) → Members
  | [] => .closed
  | (key, value) :: rest => .member (some key) (ofJson value) (ofMembers rest)

end

end Document

end Tariff.Json
