import Tariff.Script.Formula
import Tariff.RuleSet.Basic

set_option autoImplicit false

namespace Tariff

structure Script where
  rules : List (Scope × RuleDraft)
  constants : Json.Object
  total : Option String

namespace Script

-- A place in a text. Lines and columns count from one, columns in characters.
structure Position where
  line : Nat
  column : Nat
deriving DecidableEq, Repr

def Position.behind (consumed : List Char) : Position :=
  ⟨consumed.count '\n' + 1, (consumed.reverse.takeWhile (· != '\n')).length + 1⟩

-- The place at an offset in bytes. An offset inside a character, or behind the end, stands for the
-- end of the text.
def Position.ofOffset (text : String) (offset : Nat) : Position :=
  match text.pos? ⟨offset⟩ with
  | some place => .behind (text.sliceTo place).copy.toList
  | none => .behind text.toList

structure Error where
  position : Position
  detail : String
deriving DecidableEq, Repr

def Error.ofOffset (text : String) (offset : Nat) (detail : String) : Error :=
  ⟨.ofOffset text offset, detail⟩

def Error.message (error : Error) : String :=
  let place := "parse error at " ++ toString error.position.line ++ ":" ++
    toString error.position.column
  if error.detail = "" then place else place ++ ": " ++ error.detail

inductive Statement where
  | constant (key : String) (value : Json)
  | rule (scope : Scope) (draft : RuleDraft) (isTotal : Bool)

open Reader

def constantStatement : Reader Statement := do
  keyword "pricing"
  blank
  let key ← expecting "constant name" (commit name)
  blank
  expecting "=" (commit (exactly "="))
  let value ← commit signedLiteral
  return .constant key value.toJson

def scopeWord (scope : Scope) : Reader Scope := do
  keyword scope.name
  return scope

def totalMark : Reader Unit := do
  blank
  exactly "("
  blank
  keyword "total"
  blank
  commit (exactly ")")

def ruleStatement : Reader Statement := do
  let scope ← scopeWord .camper <|> scopeWord .registration
  blank
  let ruleName ← expecting "rule name" (commit name)
  let label ← optional (do
    blank
    stringLiteral)
  let isTotal := (← optional totalMark).isSome
  if isTotal && scope == .camper then stop
  blank
  expecting ":" (commit (exactly ":"))
  let value ← expecting "rule body" (commit formula)
  return .rule scope ⟨ruleName, label, .formula value⟩ isTotal

def statements : Reader (List Statement) := do
  let found ← many (do
    blank
    constantStatement <|> ruleStatement)
  blank
  return found

def empty : Script := ⟨[], .empty, none⟩

def add (script : Script) : Statement → Script
  | .constant key value => { script with constants := script.constants.insert key value }
  | .rule scope draft isTotal =>
      { script with
        rules := script.rules ++ [(scope, draft)]
        total := if isTotal then some draft.name else script.total }

def ofStatements (statements : List Statement) : Script := statements.foldl add empty

def errorAt (text rest : List Char) (complaint : Complaint) : Error :=
  .ofOffset (String.ofList text)
    ((String.ofList text).utf8ByteSize - (String.ofList rest).utf8ByteSize) complaint.message

def ofChars (text : List Char) : Except Error Script :=
  match statements text with
  | .done found [] => .ok (ofStatements found)
  | .done _ (c :: rest) => .error (errorAt text (c :: rest) .none)
  | .missed rest complaint => .error (errorAt text rest complaint)
  | .stopped rest complaint => .error (errorAt text rest complaint)

def ofString (text : String) : Except Error Script := ofChars text.toList

def toDraft (script : Script) : Draft :=
  let draft := (Draft.empty.addAll script.rules).setConstants script.constants
  { draft with total := script.total }

end Script

end Tariff
