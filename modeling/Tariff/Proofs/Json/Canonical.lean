import Tariff.Form

set_option autoImplicit false

namespace Tariff

namespace Json

theorem canonical_insert {key : String} {value : Json} {members : Members}
    (canonical : CanonicalMembers members) (also : value.Canonical) :
    CanonicalMembers (members.insert key value) := by
  induction members with
  | nil => exact ⟨also, trivial⟩
  | cons head rest ih =>
      obtain ⟨first, held⟩ := head
      obtain ⟨here, later⟩ := canonical
      by_cases before : key < first
      · simpa [Members.insert, before] using ⟨also, here, later⟩
      · by_cases same : key = first
        · simpa [Members.insert, before, same] using ⟨also, later⟩
        · simpa [Members.insert, before, same] using ⟨here, ih later⟩

def Object.Canonical (object : Object) : Prop := object.toJson.Canonical

theorem Object.empty_canonical : Object.empty.Canonical := ⟨.nil, trivial⟩

theorem Object.Canonical.insert {object : Object} (canonical : object.Canonical) (key : String)
    {value : Json} (also : value.Canonical) : (object.insert key value).Canonical :=
  ⟨(object.insert key value).ascending, canonical_insert canonical.2 also⟩

theorem bind_eq_ok {α β : Type} {taken : Except Fault α} {next : α → Except Fault β} {result : β}
    (run : taken >>= next = .ok result) : ∃ value, taken = .ok value ∧ next value = .ok result := by
  cases taken with
  | error fault => cases run
  | ok value => exact ⟨value, rfl, run⟩

theorem map_eq_ok {α β : Type} {taken : Except Fault α} {build : α → β} {result : β}
    (run : taken.map build = .ok result) : ∃ value, taken = .ok value ∧ build value = result := by
  cases taken with
  | error fault => cases run
  | ok value => exact ⟨value, rfl, Except.ok.inj run⟩

namespace Document

mutual

theorem to_json_canonical (document : Document) (levels : Nat) {json : Json}
    (taken : document.toJson levels = .ok json) : json.Canonical := by
  cases document with
  | array items =>
      cases levels with
      | zero => cases taken
      | succ inner =>
          obtain ⟨values, read, same⟩ := map_eq_ok taken
          subst same
          exact items_to_json_canonical items inner read
  | object members =>
      cases levels with
      | zero => cases taken
      | succ inner =>
          obtain ⟨object, read, same⟩ := map_eq_ok taken
          subst same
          exact members_to_object_canonical members inner Object.empty_canonical read
  | _ => cases taken <;> trivial

theorem items_to_json_canonical (items : Items) (levels : Nat) {values : List Json}
    (taken : itemsToJson items levels = .ok values) : CanonicalItems values := by
  cases items with
  | closed =>
      cases taken
      trivial
  | broken cause => cases taken
  | item head tail =>
      obtain ⟨value, first, taken⟩ := bind_eq_ok taken
      obtain ⟨rest, later, taken⟩ := bind_eq_ok taken
      cases taken
      exact ⟨to_json_canonical head levels first, items_to_json_canonical tail levels later⟩

theorem members_to_object_canonical (members : Members) (levels : Nat) {found object : Object}
    (canonical : found.Canonical) (taken : membersToObject members levels found = .ok object) :
    object.Canonical := by
  cases members with
  | closed =>
      cases taken
      exact canonical
  | broken cause => cases taken
  | member key value tail =>
      cases key with
      | none => cases taken
      | some key =>
          obtain ⟨json, first, taken⟩ := bind_eq_ok taken
          have also := to_json_canonical value levels first
          exact members_to_object_canonical tail levels (canonical.insert key also) taken

end

end Document

namespace Reader

theorem fold_members_keeps {σ : Type} {good : σ → Prop} {step : σ → String → Document → Except Fault σ}
    (keeps : ∀ state key value next, good state → step state key value = .ok next → good next)
    (members : Document.Members) {state last : σ} (start : good state)
    (taken : foldMembers step state members = .ok last) : good last := by
  cases members with
  | closed =>
      cases taken
      exact start
  | broken cause => cases taken
  | member key value tail =>
      cases key with
      | none => cases taken
      | some key =>
          obtain ⟨next, stepped, taken⟩ := bind_eq_ok taken
          exact fold_members_keeps keeps tail (keeps state key value next start stepped) taken

theorem read_items_gives {α : Type} {good : α → Prop} {read : Document → Except Fault α}
    (gives : ∀ document value, read document = .ok value → good value) (items : Document.Items)
    {values : List α} (taken : readItems read items = .ok values) : ∀ value ∈ values, good value := by
  cases items with
  | closed =>
      cases taken
      exact List.forall_mem_nil good
  | broken cause => cases taken
  | item head tail =>
      obtain ⟨value, first, taken⟩ := bind_eq_ok taken
      obtain ⟨rest, later, taken⟩ := bind_eq_ok taken
      cases taken
      exact List.forall_mem_cons.mpr ⟨gives head value first, read_items_gives gives tail later⟩

theorem object_canonical {levels : Nat} {document : Document} {read : Object}
    (taken : object levels document = .ok read) : read.Canonical := by
  cases document with
  | object members =>
      cases levels with
      | zero => cases taken
      | succ inner => exact Document.members_to_object_canonical members inner Object.empty_canonical taken
  | _ => cases taken

theorem list_gives {α : Type} {good : α → Prop} {read : Reader α}
    (gives : ∀ levels document value, read levels document = .ok value → good value) {levels : Nat}
    {document : Document} {values : List α} (taken : list read levels document = .ok values) :
    ∀ value ∈ values, good value := by
  cases document with
  | array items =>
      cases levels with
      | zero => cases taken
      | succ inner => exact read_items_gives (gives inner) items taken
  | _ => cases taken

end Reader

end Json

-- Every form that is read is canonical (`reader_canonical`).
structure Form.Canonical (form : Form) : Prop where
  campers : ∀ camper ∈ form.campers, camper.Canonical
  fields : form.fields.Canonical

namespace Form

def Partial.Canonical (found : Partial) : Prop :=
  (∀ camper ∈ found.campers.getD [], camper.Canonical) ∧ found.fields.Canonical

theorem Partial.read_canonical (levels : Nat) (found : Partial) (key : String) (value : Json.Document)
    (next : Partial) (canonical : found.Canonical)
    (taken : Partial.read levels found key value = .ok next) : next.Canonical := by
  by_cases isCampers : key = campersKey
  · rw [Partial.read, if_pos isCampers] at taken
    cases held : found.campers with
    | some campers =>
        rw [held] at taken
        cases taken
    | none =>
        rw [held] at taken
        obtain ⟨campers, read, taken⟩ := Json.bind_eq_ok taken
        cases taken
        exact ⟨Json.Reader.list_gives (fun _ _ _ => Json.Reader.object_canonical) read, canonical.2⟩
  · rw [Partial.read, if_neg isCampers] at taken
    obtain ⟨answer, read, taken⟩ := Json.bind_eq_ok taken
    cases taken
    exact ⟨canonical.1, canonical.2.insert key (value.to_json_canonical levels read)⟩

theorem reader_canonical {levels : Nat} {document : Json.Document} {form : Form}
    (taken : reader levels document = .ok form) : form.Canonical := by
  obtain ⟨found, read, taken⟩ := Json.bind_eq_ok taken
  cases taken
  cases document with
  | object members =>
      cases levels with
      | zero => cases read
      | succ inner =>
          have start : Partial.Canonical ⟨none, .empty⟩ :=
            ⟨List.forall_mem_nil _, Json.Object.empty_canonical⟩
          obtain ⟨campers, fields⟩ :=
            Json.Reader.fold_members_keeps (Partial.read_canonical inner) members start read
          exact ⟨campers, fields⟩
  | _ => cases read

end Form

end Tariff
