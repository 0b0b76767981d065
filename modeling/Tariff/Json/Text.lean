import Tariff.Json.Basic

set_option autoImplicit false

namespace Tariff.Json

def hexDigit (n : Nat) : Char := Nat.digitChar n

def escapeChar (c : Char) : List Char :=
  if c = '"' then ['\\', '"']
  else if c = '\\' then ['\\', '\\']
  else if c = '\x08' then ['\\', 'b']
  else if c = '\t' then ['\\', 't']
  else if c = '\n' then ['\\', 'n']
  else if c = '\x0c' then ['\\', 'f']
  else if c = '\r' then ['\\', 'r']
  else if c < ' ' then ['\\', 'u', '0', '0', hexDigit (c.toNat / 16), hexDigit (c.toNat % 16)]
  else [c]

def stringChars (s : String) : List Char := '"' :: (s.toList.flatMap escapeChar ++ ['"'])

mutual

def chars : Json → List Char
  | .null => ['n', 'u', 'l', 'l']
  | .bool true => ['t', 'r', 'u', 'e']
  | .bool false => ['f', 'a', 'l', 's', 'e']
  | .number value => value.text
  | .string value => stringChars value
  | .array items => '[' :: itemsChars items
  | .object members => '\x7b' :: membersChars members

def itemsChars : List Json → List Char
  | [] => [']']
  | item :: rest => item.chars ++ moreItemsChars rest

def moreItemsChars : List Json → List Char
  | [] => [']']
  | item :: rest => ',' :: item.chars ++ moreItemsChars rest

def membersChars : List (String × Json) → List Char
  | [] => ['\x7d']
  | (key, value) :: rest => stringChars key ++ ':' :: value.chars ++ moreMembersChars rest

def moreMembersChars : List (String × Json) → List Char
  | [] => ['\x7d']
  | (key, value) :: rest =>
      ',' :: stringChars key ++ ':' :: value.chars ++ moreMembersChars rest

end

def text (json : Json) : String := String.ofList json.chars

end Tariff.Json
