import Tariff.Proofs.Decimal.Text
import Tariff.Proofs.Environment.Below
import Tariff.Proofs.Environment.Bound

set_option autoImplicit false

namespace Tariff

namespace Json

def numbered : Nat → List Json → Members
  | _, [] => []
  | place, item :: rest => (toString place, item) :: numbered (place + 1) rest

def children : Json → Members
  | .array items => numbered 0 items
  | .object members => members
  | _ => []

def reading : Json → Lookup
  | .array _ => .missing
  | .object _ => .missing
  | scalar =>
      match Scalar.ofJson? scalar with
      | some value => .found value
      | none => .unavailable

def follow : Path → Json → Lookup
  | [], json => json.reading
  | key :: rest, json =>
      match json.children.lookup key with
      | some child => follow rest child
      | none => .missing

mutual

def Undotted : Json → Prop
  | .array items => UndottedItems items
  | .object members => UndottedMembers members
  | _ => True

def UndottedItems : List Json → Prop
  | [] => True
  | item :: rest => item.Undotted ∧ UndottedItems rest

def UndottedMembers : List (String × Json) → Prop
  | [] => True
  | (key, value) :: rest => '.' ∉ key.toList ∧ value.Undotted ∧ UndottedMembers rest

end

theorem undotted_members_iff (members : Members) :
    UndottedMembers members ↔ ∀ entry ∈ members, '.' ∉ entry.1.toList ∧ entry.2.Undotted := by
  induction members with
  | nil => simp [UndottedMembers]
  | cons entry rest ih => simp [UndottedMembers, ih, and_assoc]

theorem canonical_members_iff (members : Members) :
    CanonicalMembers members ↔ ∀ entry ∈ members, entry.2.Canonical := by
  induction members with
  | nil => simp [CanonicalMembers]
  | cons entry rest ih => simp [CanonicalMembers, ih]

theorem to_string_undotted (place : Nat) : '.' ∉ (toString place).toList := by
  intro dot
  have digits := List.all_eq_true.mp (Decimal.to_digits_all place) '.' (Nat.toList_repr ▸ dot)
  exact absurd digits (by decide)

theorem to_string_injective {place other : Nat} (same : toString place = toString other) :
    place = other := by
  have chars : Nat.toDigits 10 place = Nat.toDigits 10 other := by
    rw [← Nat.toList_repr, ← Nat.toList_repr]
    exact congrArg String.toList same
  rw [← Decimal.to_digits_value place, chars, Decimal.to_digits_value]

theorem numbered_undotted (place : Nat) {items : List Json} (undotted : UndottedItems items) :
    UndottedMembers (numbered place items) := by
  induction items generalizing place with
  | nil => trivial
  | cons item rest ih =>
      obtain ⟨here, later⟩ := undotted
      exact ⟨to_string_undotted place, here, ih (place + 1) later⟩

theorem numbered_canonical (place : Nat) {items : List Json} (canonical : CanonicalItems items) :
    CanonicalMembers (numbered place items) := by
  induction items generalizing place with
  | nil => trivial
  | cons item rest ih =>
      obtain ⟨here, later⟩ := canonical
      exact ⟨here, ih (place + 1) later⟩

theorem numbered_keys (place : Nat) (items : List Json) :
    (numbered place items).map (·.1) = (List.range' place items.length).map toString := by
  induction items generalizing place with
  | nil => rfl
  | cons item rest ih => simp [numbered, ih, List.range'_succ]

theorem numbered_distinct (place : Nat) (items : List Json) :
    ((numbered place items).map (·.1)).Nodup := by
  rw [numbered_keys, List.Nodup, List.pairwise_map]
  exact (List.nodup_range' ..).imp fun different same => different (to_string_injective same)

-- No key has a dot and no object has a key twice, however deep.
structure Plain (json : Json) : Prop where
  undotted : json.Undotted
  canonical : json.Canonical

theorem Plain.keys {json : Json} (plain : json.Plain) : (json.children.map (·.1)).Nodup := by
  cases json with
  | array items => exact numbered_distinct 0 items
  | object members => exact plain.canonical.1.distinct
  | _ => exact .nil

theorem Plain.children {json : Json} (plain : json.Plain) :
    ∀ entry ∈ json.children, '.' ∉ entry.1.toList ∧ entry.2.Plain := by
  have undotted : UndottedMembers json.children := by
    cases json with
    | array items => exact numbered_undotted 0 plain.undotted
    | object members => exact plain.undotted
    | _ => trivial
  have canonical : CanonicalMembers json.children := by
    cases json with
    | array items => exact numbered_canonical 0 plain.canonical
    | object members => exact plain.canonical.2
    | _ => trivial
  intro entry member
  obtain ⟨noDot, below⟩ := (undotted_members_iff _).mp undotted entry member
  exact ⟨noDot, below, (canonical_members_iff _).mp canonical entry member⟩

end Json

namespace Binding.Members

open Json

theorem bind_items_numbered (path : Path) (place : Nat) (items : List Json) (members : Members) :
    bindItems path place items members = bindEntries path (numbered place items) members := by
  induction items generalizing place members with
  | nil => rfl
  | cons item rest ih =>
      rw [bindItems, numbered, bindEntries, ih, Path.of_string_undotted _ (to_string_undotted place)]

theorem bind_json_cases (json : Json) :
    (∃ binding, json.reading = reading (some binding) ∧ inner (some binding) = [] ∧
        json.children = [] ∧ ∀ path members, bindJson path json members = bind path binding members) ∨
      (json.reading = .missing ∧
        ∀ path members, bindJson path json members = bindEntries path json.children members) := by
  cases json with
  | array items => exact .inr ⟨rfl, fun path members => bind_items_numbered path 0 items members⟩
  | object members => exact .inr ⟨rfl, fun _ _ => rfl⟩
  | null => exact .inl ⟨_, rfl, rfl, rfl, fun _ _ => rfl⟩
  | bool value => exact .inl ⟨_, rfl, rfl, rfl, fun _ _ => rfl⟩
  | string value => exact .inl ⟨_, rfl, rfl, rfl, fun _ _ => rfl⟩
  | number number =>
      left
      cases made : Scalar.ofJson? (.number number) with
      | some value =>
          exact ⟨.leaf value, by simp [Json.reading, made, reading], rfl, rfl, by simp [bindJson, made]⟩
      | none =>
          exact ⟨.unavailable, by simp [Json.reading, made, reading], rfl, rfl, by simp [bindJson, made]⟩

theorem missing_sequential (root : String) : Sequential fun change _ =>
    ∀ members : Members, reading (members.lookup root) = .missing →
      reading ((change members).lookup root) = .missing where
  idle _ missing := missing
  next first second members missing := second _ (first members missing)

theorem bind_entries_missing (root : String) (entries : List (String × Json)) (members : Members)
    (missing : reading (members.lookup root) = .missing) :
    reading ((bindEntries [root] entries members).lookup root) = .missing := by
  refine bind_entries_steps (missing_sequential root) [root] [] ?_ entries members missing
  intro rest nonempty binding members _
  obtain ⟨second, more, same⟩ := List.exists_cons_of_ne_nil nonempty
  simp [same, bind, Named.lookup_put, reading]

theorem read_bind_json (path : Path) (key : String) {json : Json} (plain : json.Plain)
    {members : Members} (missing : read (key :: path) members = .missing) :
    read (key :: path) (bindJson [key] json members) = json.follow path := by
  induction path generalizing key json members with
  | nil =>
      rw [read, follow]
      rcases bind_json_cases json with ⟨binding, reads, _, _, bound⟩ | ⟨reads, bound⟩
      · simp [bound, bind, Named.lookup_put, reads]
      · rw [bound, reads]
        exact bind_entries_missing key json.children members missing
  | cons second rest ih =>
      rw [read, follow]
      rcases bind_json_cases json with ⟨binding, _, empty, none, bound⟩ | ⟨_, bound⟩
      · simp [bound, bind, Named.lookup_put, empty, none, read_nothing]
      · have held := bind_entries_lookup json.children
          (fun entry member => (plain.children entry member).1) plain.keys second
          (inner (members.lookup key))
        rw [bound, inner_bind_entries key []]
        cases found : json.children.lookup second with
        | none =>
            rw [found] at held
            exact (read_root held rest).trans missing
        | some child =>
            rw [found] at held
            have below := plain.children _ (Named.mem_of_lookup found)
            exact (read_root held rest).trans (ih second below.2 missing)

end Binding.Members

theorem Environment.lookup_followed {root : String} (undottedRoot : '.' ∉ root.toList)
    {object : Json.Object} (plain : object.toJson.Plain) {environment : Environment} {path : String}
    {rest : Path} (parts : Path.ofString path = root :: rest)
    (missing : environment.lookup path = .missing) :
    (environment.bindObject root object).lookup path = object.toJson.follow rest := by
  rw [lookup, parts] at missing
  rw [lookup, bindObject, parts, Path.of_string_undotted root undottedRoot]
  exact Binding.Members.read_bind_json rest root plain missing

end Tariff
