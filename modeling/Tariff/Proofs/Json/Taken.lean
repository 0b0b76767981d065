import Tariff.Json.Reader
import Tariff.Proofs.Json.Canonical
import Tariff.Proofs.Json.Text

set_option autoImplicit false

namespace Tariff

namespace Json

namespace Document

mutual

theorem to_json_of_json (json : Json) (canonical : json.Canonical) (levels : Nat)
    (within : json.depth ≤ levels) : (ofJson json).toJson levels = .ok json := by
  cases json with
  | array items =>
      cases levels with
      | zero => cases within
      | succ inner =>
          have taken := items_to_json_of_items items canonical inner (Nat.le_of_succ_le_succ within)
          rw [ofJson, toJson, taken]
          rfl
  | object members =>
      cases levels with
      | zero => cases within
      | succ inner =>
          have taken := members_to_object_of_members members canonical.2 inner
            (Nat.le_of_succ_le_succ within) .empty
          rw [ofJson, toJson, taken, Object.insert_all_empty ⟨members, canonical.1⟩]
          rfl
  | _ => rfl

theorem items_to_json_of_items (items : List Json) (canonical : CanonicalItems items) (levels : Nat)
    (within : depthItems items ≤ levels) : itemsToJson (ofItems items) levels = .ok items := by
  cases items with
  | nil => rfl
  | cons item rest =>
      obtain ⟨here, later⟩ := Nat.max_le.mp within
      rw [ofItems, itemsToJson, to_json_of_json item canonical.1 levels here,
        items_to_json_of_items rest canonical.2 levels later]
      rfl

theorem members_to_object_of_members (members : Json.Members) (canonical : CanonicalMembers members)
    (levels : Nat) (within : depthMembers members ≤ levels) (found : Object) :
    membersToObject (ofMembers members) levels found = .ok (found.insertAll members) := by
  cases members with
  | nil => rfl
  | cons member rest =>
      obtain ⟨key, value⟩ := member
      obtain ⟨here, later⟩ := Nat.max_le.mp within
      rw [ofMembers, membersToObject, to_json_of_json value canonical.1 levels here]
      exact members_to_object_of_members rest canonical.2 levels later (found.insert key value)

end

end Document

namespace Reader

theorem object_of_json {object : Object} (canonical : object.Canonical) {levels : Nat}
    (within : object.toJson.depth ≤ levels) :
    Reader.object levels (.ofJson object.toJson) = .ok object := by
  cases levels with
  | zero => cases within
  | succ inner =>
      have taken := Document.members_to_object_of_members object.members canonical.2 inner
        (Nat.le_of_succ_le_succ within) .empty
      exact taken.trans (congrArg Except.ok object.insert_all_empty)

theorem read_items_of_items {α : Type} {read : Document → Except Fault α} {write : α → Json}
    {values : List α} (each : ∀ value ∈ values, read (.ofJson (write value)) = .ok value) :
    readItems read (Document.ofItems (values.map write)) = .ok values := by
  induction values with
  | nil => rfl
  | cons value rest ih =>
      obtain ⟨here, later⟩ := List.forall_mem_cons.mp each
      rw [List.map_cons, Document.ofItems, readItems, here, ih later]
      rfl

theorem of_text_text {α : Type} (read : Reader α) {json : Json} (whole : json.Whole) :
    read.ofText json.text = read textLevels (.ofJson json) := by
  rw [ofText, text, String.toList_ofList, Document.of_chars_chars whole]
  dsimp only
  cases read textLevels (.ofJson json) <;> rfl

end Reader

end Json

end Tariff
