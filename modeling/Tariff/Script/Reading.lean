import Tariff.Decimal.Text

/-! A reader succeeds with a value, misses, so that something else may be tried, or stops for good. A
miss leaves the text where it was noticed; only what tries something else goes back. -/

set_option autoImplicit false

namespace Tariff.Script

structure Complaint where
  expected : List String
  cause : Option Decimal.TextError
deriving DecidableEq, Repr

namespace Complaint

def none : Complaint := ⟨[], .none⟩

def add (complaint : Complaint) (what : String) : Complaint :=
  { complaint with expected := complaint.expected ++ [what] }

def message (complaint : Complaint) : String :=
  let wanted :=
    if complaint.expected.isEmpty then ""
    else "expected " ++ ", ".intercalate complaint.expected
  match complaint.cause with
  | .none => wanted
  | some cause => if wanted = "" then cause.message else wanted ++ "\n" ++ cause.message

end Complaint

inductive Reading (α : Type) where
  | done (value : α) (rest : List Char)
  | missed (rest : List Char) (complaint : Complaint)
  | stopped (rest : List Char) (complaint : Complaint)
deriving Repr

def Reader (α : Type) := List Char → Reading α

namespace Reader

instance : Monad Reader where
  pure value := fun text => .done value text
  bind read next := fun text =>
    match read text with
    | .done value rest => next value rest
    | .missed rest complaint => .missed rest complaint
    | .stopped rest complaint => .stopped rest complaint

def miss {α : Type} : Reader α := fun text => .missed text .none

def stop {α : Type} : Reader α := fun text => .stopped text .none

def commit {α : Type} (read : Reader α) : Reader α := fun text =>
  match read text with
  | .missed rest complaint => .stopped rest complaint
  | reading => reading

def expecting {α : Type} (what : String) (read : Reader α) : Reader α := fun text =>
  match read text with
  | .done value rest => .done value rest
  | .missed rest complaint => .missed rest (complaint.add what)
  | .stopped rest complaint => .stopped rest (complaint.add what)

def orElse {α : Type} (first second : Reader α) : Reader α := fun text =>
  match first text with
  | .missed _ _ => second text
  | reading => reading

instance {α : Type} : OrElse (Reader α) := ⟨fun first second => orElse first (second ())⟩

def optional {α : Type} (read : Reader α) : Reader (Option α) := fun text =>
  match read text with
  | .done value rest => .done (some value) rest
  | .missed _ _ => .done .none text
  | .stopped rest complaint => .stopped rest complaint

def upTo {α : Type} (read : Reader α) : Nat → Reader (List α)
  | 0 => fun text => .done [] text
  | limit + 1 => fun text =>
      match read text with
      | .missed _ _ => .done [] text
      | .stopped rest complaint => .stopped rest complaint
      | .done value rest =>
          match upTo read limit rest with
          | .done values rest => .done (value :: values) rest
          | .missed rest complaint => .missed rest complaint
          | .stopped rest complaint => .stopped rest complaint

-- As many values as there are. Each takes up a character at least, so the length of the text is
-- limit enough.
def many {α : Type} (read : Reader α) : Reader (List α) := fun text =>
  upTo read text.length text

def separated {α β : Type} (read : Reader α) (separator : Reader β) : Reader (List α) := do
  let first ← read
  let more ← many (do let _ ← separator; read)
  return first :: more

def separatedOrNone {α β : Type} (read : Reader α) (separator : Reader β) : Reader (List α) :=
  orElse (separated read separator) (pure [])

def one (accepts : Char → Bool) : Reader Char
  | [] => .missed [] .none
  | c :: rest => if accepts c then .done c rest else .missed (c :: rest) .none

def run (accepts : Char → Bool) : Reader (List Char) := fun text =>
  .done (text.takeWhile accepts) (text.dropWhile accepts)

def someRun (accepts : Char → Bool) : Reader (List Char) := fun text =>
  match text.takeWhile accepts with
  | [] => .missed text .none
  | found => .done found (text.dropWhile accepts)

def behind? : List Char → List Char → Option (List Char)
  | [], rest => some rest
  | _ :: _, [] => .none
  | expected :: more, c :: rest => if c = expected then behind? more rest else .none

def exactly (word : String) : Reader Unit := fun text =>
  match behind? word.toList text with
  | some rest => .done () rest
  | .none => .missed text .none

def notBefore (refused : Char → Bool) : Reader Unit := fun text =>
  match text with
  | [] => .done () []
  | c :: rest => if refused c then .missed (c :: rest) .none else .done () (c :: rest)

end Reader

end Tariff.Script
