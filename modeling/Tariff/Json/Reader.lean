import Tariff.Json.Document

/-! A reader is told how many levels of arrays and objects it may still enter. It goes through the
document from left to right and stops at the first fault. -/

set_option autoImplicit false

namespace Tariff.Json

namespace Document

-- The fault of a document that does not have the wanted shape: a container is not looked into.
def mismatch : Document → Fault
  | .unreadable => .malformed
  | .broken cause => cause.taken
  | _ => .mismatch

mutual

def skip : Document → Except Fault Unit
  | .array items => skipItems items
  | .object members => skipMembers members
  | .broken cause => .error cause.skipped
  | _ => .ok ()

def skipItems : Items → Except Fault Unit
  | .closed => .ok ()
  | .broken cause => .error cause.skipped
  | .item head tail => do
      head.skip
      skipItems tail

def skipMembers : Members → Except Fault Unit
  | .closed => .ok ()
  | .broken cause => .error cause.skipped
  | .member _ value tail => do
      value.skip
      skipMembers tail

end

mutual

def toJson : Document → Nat → Except Fault Json
  | .null, _ => .ok .null
  | .bool value, _ => .ok (.bool value)
  | .number value, _ => .ok (.number value)
  | .string value, _ => .ok (.string value)
  | .unreadable, _ => .error .malformed
  | .broken cause, _ => .error cause.taken
  | .array _, 0 => .error .malformed
  | .array items, levels + 1 => (itemsToJson items levels).map .array
  | .object _, 0 => .error .malformed
  | .object members, levels + 1 =>
      (membersToObject members levels .empty).map Object.toJson

def itemsToJson : Items → Nat → Except Fault (List Json)
  | .closed, _ => .ok []
  | .broken cause, _ => .error cause.taken
  | .item head tail, levels => do
      let head ← head.toJson levels
      let tail ← itemsToJson tail levels
      return head :: tail

def membersToObject : Members → Nat → Object → Except Fault Object
  | .closed, _, found => .ok found
  | .broken cause, _, _ => .error cause.taken
  | .member none _ _, _, _ => .error .malformed
  | .member (some key) value tail, levels, found => do
      let value ← value.toJson levels
      membersToObject tail levels (found.insert key value)

end

end Document

abbrev Reader (α : Type) := Nat → Document → Except Fault α

namespace Reader

def enter {α : Type} (levels : Nat) (read : Nat → Except Fault α) : Except Fault α :=
  match levels with
  | 0 => .error .malformed
  | inner + 1 => read inner

def json : Reader Json := fun levels document => document.toJson levels

def string : Reader String
  | _, .string value => .ok value
  | _, document => .error document.mismatch

def optional {α : Type} (read : Reader α) : Reader (Option α)
  | _, .null => .ok none
  | levels, document => (read levels document).map some

def object : Reader Object
  | levels, .object members =>
      enter levels fun inner => Document.membersToObject members inner .empty
  | _, document => .error document.mismatch

def readItems {α : Type} (read : Document → Except Fault α) :
    Document.Items → Except Fault (List α)
  | .closed => .ok []
  | .broken cause => .error cause.taken
  | .item head tail => do
      let head ← read head
      let tail ← readItems read tail
      return head :: tail

def list {α : Type} (read : Reader α) : Reader (List α)
  | levels, .array items => enter levels fun inner => readItems (read inner) items
  | _, document => .error document.mismatch

def foldMembers {σ : Type} (step : σ → String → Document → Except Fault σ) (state : σ) :
    Document.Members → Except Fault σ
  | .closed => .ok state
  | .broken cause => .error cause.taken
  | .member none _ _ => .error .malformed
  | .member (some key) value tail => do
      let state ← step state key value
      foldMembers step state tail

def members {σ : Type} (start : σ) (step : Nat → σ → String → Document → Except Fault σ) :
    Reader σ
  | levels, .object members => enter levels fun inner => foldMembers (step inner) start members
  | _, document => .error document.mismatch

structure Field (σ : Type) where
  name : String
  read : Nat → Document → σ → Except Fault σ

def field {σ α : Type} (name : String) (reader : Reader α) (put : α → σ → σ) : Field σ :=
  ⟨name, fun levels document state => (reader levels document).map fun value => put value state⟩

def recordStep {σ : Type} (fields : List (Field σ)) (levels : Nat) (state : List String × σ)
    (key : String) (value : Document) : Except Fault (List String × σ) :=
  match fields.find? fun field => field.name == key with
  | none => do
      value.skip
      return state
  | some field =>
      if key ∈ state.1 then .error .mismatch
      else do
        let next ← field.read levels value state.2
        return (key :: state.1, next)

def readFields {σ : Type} (levels : Nat) :
    List (Field σ) → σ → Document.Items → Except Fault σ
  | _, state, .closed => .ok state
  | _, _, .broken cause => .error cause.taken
  | [], _, .item _ _ => .error .malformed
  | field :: more, state, .item head tail => do
      let state ← field.read levels head state
      readFields levels more state tail

def record {σ α : Type} (fields : List (Field σ)) (start : σ) (finish : σ → Option α) :
    Reader α := fun levels document => do
  let state ← match document with
    | .object members => enter levels fun inner => do
        let (_, state) ← foldMembers (recordStep fields inner) ([], start) members
        return state
    | .array items => enter levels fun inner => readFields inner fields start items
    | document => throw document.mismatch
  match finish state with
  | some value => return value
  | none => throw .mismatch

def textLevels : Nat := 127

def ofText {α : Type} (read : Reader α) (text : String) : Except Fault α := do
  let (document, rest) := Document.ofChars text.toList
  let value ← read textLevels document
  match rest with
  | some rest => if (Document.skipSpace rest).isEmpty then return value else throw .malformed
  | none => throw .cutShort

def ofJson {α : Type} (read : Reader α) (json : Json) : Except Fault α :=
  (read json.depth (Document.ofJson json)).mapError fun _ => .mismatch

end Reader

def ofText (text : String) : Except Fault Json := Reader.json.ofText text

end Tariff.Json
