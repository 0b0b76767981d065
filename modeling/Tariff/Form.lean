import Tariff.Json.Reader

set_option autoImplicit false

namespace Tariff

abbrev Camper := Json.Object

structure Form where
  campers : List Camper
  fields : Json.Object

namespace Form

def empty : Form := ⟨[], .empty⟩

instance : Inhabited Form := ⟨empty⟩

def fresh : Form := ⟨[.empty], .empty⟩

def camperCount (form : Form) : Nat := form.campers.length

def addCamper (form : Form) (camper : Camper) : Form :=
  { form with campers := form.campers ++ [camper] }

def removeCamper (form : Form) (index : Nat) : Form :=
  { form with campers := form.campers.eraseIdx index }

def setField (form : Form) (key : String) (value : Json) : Form :=
  { form with fields := form.fields.insert key value }

def eraseField (form : Form) (key : String) : Form :=
  { form with fields := form.fields.erase key }

def setCamperField (form : Form) (index : Nat) (key : String) (value : Json) : Form :=
  { form with campers := form.campers.modify index fun camper => camper.insert key value }

def campersKey : String := "campers"

def toJson (form : Form) : Json :=
  .object ((campersKey, .array (form.campers.map Json.Object.toJson)) :: form.fields.members)

structure Partial where
  campers : Option (List Camper)
  fields : Json.Object

def Partial.read (levels : Nat) (found : Partial) (key : String) (value : Json.Document) :
    Except Json.Fault Partial :=
  if key = campersKey then
    match found.campers with
    | some _ => .error .mismatch
    | none => do
        let campers ← Json.Reader.list Json.Reader.object levels value
        return { found with campers := some campers }
  else do
    let value ← value.toJson levels
    return { found with fields := found.fields.insert key value }

-- The campers may be missing but must not be there twice; every other member is an answer.
def reader : Json.Reader Form := fun levels document => do
  let found ← Json.Reader.members ⟨none, .empty⟩ Partial.read levels document
  return ⟨found.campers.getD [], found.fields⟩

end Form

end Tariff
