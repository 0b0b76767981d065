import Tariff.Script.Reading
import Tariff.Scalar

set_option autoImplicit false

namespace Tariff.Script

open Reader

def isSpace (c : Char) : Bool :=
  c == ' ' || c == '\t' || c == '\n' || c == '\x0c' || c == '\r'

mutual

def skipBlank : List Char → List Char
  | [] => []
  | c :: rest =>
      if c = '#' then skipComment (c :: rest) rest
      else if isSpace c then skipBlank rest
      else c :: rest

-- A comment goes to the end of its line. A carriage return in it that ends no line makes it no
-- comment, so the text from `start` on stays.
def skipComment (start : List Char) : List Char → List Char
  | [] => []
  | '\n' :: rest => skipBlank rest
  | '\r' :: '\n' :: rest => skipBlank rest
  | '\r' :: _ => start
  | _ :: rest => skipComment start rest

end

def blank : Reader Unit := fun text => .done () (skipBlank text)

def isLetter (c : Char) : Bool := ('a' ≤ c && c ≤ 'z') || ('A' ≤ c && c ≤ 'Z')

def startsWord (c : Char) : Bool := isLetter c || c == '_'

def isWordChar (c : Char) : Bool := isLetter c || Decimal.isDigit c || c == '_'

def isPathChar (c : Char) : Bool := isWordChar c || c == '.'

def keyword (word : String) : Reader Unit := do
  exactly word
  notBefore isWordChar

def name : Reader String := do
  let start ← someRun startsWord
  let rest ← run isWordChar
  return String.ofList (start ++ rest)

def reserved : List String :=
  ["and", "or", "not", "in", "if", "then", "elif", "else", "true", "false", "null"]

def lowerLetter (c : Char) : Char :=
  if 'A' ≤ c && c ≤ 'Z' then Char.ofNat (c.toNat + 32) else c

def isReserved (word : List Char) : Bool :=
  reserved.any fun known => known.toList == word.map lowerLetter

-- A path with dots. A reserved word is a miss behind that word.
def path : Reader String := do
  let start ← someRun startsWord
  let rest ← run isPathChar
  if isReserved (start ++ rest) then miss else return String.ofList (start ++ rest)

def unescape (c : Char) : List Char :=
  if c = '"' then ['"']
  else if c = '\\' then ['\\']
  else if c = 'n' then ['\n']
  else if c = 't' then ['\t']
  else ['\\', c]

def stringTail : Reader (List Char)
  | [] => .missed [] .none
  | '"' :: rest => .done [] rest
  | ['\\'] => .missed [] .none
  | '\\' :: c :: rest =>
      match stringTail rest with
      | .done value rest => .done (unescape c ++ value) rest
      | .missed rest complaint => .missed rest complaint
      | .stopped rest complaint => .stopped rest complaint
  | c :: rest =>
      match stringTail rest with
      | .done value rest => .done (c :: value) rest
      | .missed rest complaint => .missed rest complaint
      | .stopped rest complaint => .stopped rest complaint

def stringLiteral : Reader String := do
  exactly "\""
  let value ← stringTail
  return String.ofList value

def numberText : Reader (List Char) := do
  let whole ← someRun Decimal.isDigit
  let fraction ← optional (do
    exactly "."
    someRun Decimal.isDigit)
  match fraction with
  | some digits => return whole ++ '.' :: digits
  | none => return whole

def number : Reader Decimal := fun text =>
  match numberText text with
  | .done digits rest =>
      match Decimal.plain? digits with
      | .ok value => .done value rest
      | .error cause => .missed text ⟨[], some cause⟩
  | .missed rest complaint => .missed rest complaint
  | .stopped rest complaint => .stopped rest complaint

def literal : Reader Scalar :=
  (do return .text (← stringLiteral))
    <|> (do keyword "true"; return .bool true)
    <|> (do keyword "false"; return .bool false)
    <|> (do keyword "null"; return .null)
    <|> (do return .number (← number))

def signedLiteral : Reader Scalar := do
  blank
  match ← optional (exactly "-") with
  | some () =>
      blank
      let value ← commit number
      return .number value.neg
  | none => expecting "literal value" literal

end Tariff.Script
