import Tariff.Binary64.Text

set_option autoImplicit false

namespace Tariff

abbrev IsWord (value : Int) : Prop :=
  -9223372036854775808 ≤ value ∧ value ≤ 18446744073709551615

inductive Json.Number where
  | whole (value : Int) (isWord : IsWord value)
  | binary (value : Binary64)
deriving DecidableEq, Repr

inductive Json where
  | null
  | bool (value : Bool)
  | number (value : Json.Number)
  | string (value : String)
  | array (items : List Json)
  | object (members : List (String × Json))
deriving Repr

namespace Json

instance : Inhabited Json := ⟨.null⟩

abbrev Members := List (String × Json)

def Members.insert (key : String) (value : Json) : Members → Members
  | [] => [(key, value)]
  | (first, held) :: rest =>
      if key < first then (key, value) :: (first, held) :: rest
      else if key = first then (key, value) :: rest
      else (first, held) :: Members.insert key value rest

def Members.Ascending (members : Members) : Prop := members.Pairwise fun a b => a.1 < b.1

theorem Members.mem_insert {key : String} {value : Json} {members : Members}
    {entry : String × Json} (found : entry ∈ members.insert key value) :
    entry = (key, value) ∨ entry ∈ members := by
  induction members with
  | nil => simpa [Members.insert] using found
  | cons head rest ih =>
      obtain ⟨first, held⟩ := head
      simp only [Members.insert] at found
      split at found
      · simpa using found
      · split at found
        · rcases List.mem_cons.mp found with same | later
          · exact .inl same
          · exact .inr (List.mem_cons_of_mem _ later)
        · rcases List.mem_cons.mp found with same | later
          · exact .inr (same ▸ List.mem_cons_self)
          · rcases ih later with new | old
            · exact .inl new
            · exact .inr (List.mem_cons_of_mem _ old)

theorem Members.ascending_insert (key : String) (value : Json) {members : Members}
    (ascending : members.Ascending) : (members.insert key value).Ascending := by
  induction members with
  | nil => exact List.pairwise_singleton _ _
  | cons head rest ih =>
      obtain ⟨first, held⟩ := head
      obtain ⟨above, tail⟩ := List.pairwise_cons.mp ascending
      simp only [Members.insert]
      split
      · rename_i before
        refine List.pairwise_cons.mpr ⟨fun entry member => ?_, ascending⟩
        rcases List.mem_cons.mp member with same | later
        · exact same ▸ before
        · exact String.lt_trans before (above entry later)
      · rename_i notBefore
        split
        · rename_i same
          exact List.pairwise_cons.mpr ⟨fun entry member => same ▸ above entry member, tail⟩
        · rename_i different
          have after : first < key :=
            Std.lt_of_le_of_ne (String.not_lt.mp notBefore) (Ne.symm different)
          refine List.pairwise_cons.mpr ⟨fun entry member => ?_, ih tail⟩
          rcases Members.mem_insert member with new | old
          · exact new ▸ after
          · exact above entry old

theorem Members.insert_last {members : Members} {key : String} (value : Json)
    (below : ∀ entry ∈ members, entry.1 < key) :
    members.insert key value = members ++ [(key, value)] := by
  induction members with
  | nil => rfl
  | cons head rest ih =>
      obtain ⟨first, held⟩ := head
      obtain ⟨here, later⟩ := List.forall_mem_cons.mp below
      have notBefore : ¬key < first := String.lt_asymm here
      have different : key ≠ first := fun same => String.lt_irrefl _ (same ▸ here)
      rw [Members.insert, if_neg notBefore, if_neg different, ih later, List.cons_append]

structure Object where
  members : Members
  ascending : members.Ascending

namespace Object

def empty : Object := ⟨[], List.Pairwise.nil⟩

instance : Inhabited Object := ⟨empty⟩

def insert (object : Object) (key : String) (value : Json) : Object :=
  ⟨object.members.insert key value, Members.ascending_insert key value object.ascending⟩

def erase (object : Object) (key : String) : Object :=
  ⟨object.members.filter fun entry => entry.1 != key, object.ascending.filter _⟩

def get? (object : Object) (key : String) : Option Json := object.members.lookup key

def ofMembers (members : Members) : Object :=
  members.foldl (fun object (key, value) => object.insert key value) empty

def insertAll (object : Object) (members : Members) : Object :=
  members.foldl (fun object entry => object.insert entry.1 entry.2) object

theorem insert_all_members (object : Object) (members : Members)
    (ascending : Members.Ascending (object.members ++ members)) :
    (object.insertAll members).members = object.members ++ members := by
  induction members generalizing object with
  | nil => exact (List.append_nil _).symm
  | cons entry rest ih =>
      have below : ∀ earlier ∈ object.members, earlier.1 < entry.1 := fun earlier member =>
        (List.pairwise_append.mp ascending).2.2 earlier member entry List.mem_cons_self
      have last : (object.insert entry.1 entry.2).members = object.members ++ [entry] :=
        Members.insert_last entry.2 below
      have later := ih (object.insert entry.1 entry.2) (by rw [last]; simpa using ascending)
      rw [last, List.append_assoc] at later
      exact later

theorem insert_all_empty (object : Object) : Object.empty.insertAll object.members = object := by
  have members := Object.empty.insert_all_members object.members object.ascending
  cases object
  cases made : Object.empty.insertAll _ with
  | mk found ascending =>
      rw [made] at members
      cases members
      rfl

def toJson (object : Object) : Json := .object object.members

end Object

mutual

def Canonical : Json → Prop
  | .array items => CanonicalItems items
  | .object members => Members.Ascending members ∧ CanonicalMembers members
  | _ => True

def CanonicalItems : List Json → Prop
  | [] => True
  | item :: rest => item.Canonical ∧ CanonicalItems rest

def CanonicalMembers : List (String × Json) → Prop
  | [] => True
  | (_, value) :: rest => value.Canonical ∧ CanonicalMembers rest

end

mutual

def depth : Json → Nat
  | .array items => depthItems items + 1
  | .object members => depthMembers members + 1
  | _ => 0

def depthItems : List Json → Nat
  | [] => 0
  | item :: rest => max item.depth (depthItems rest)

def depthMembers : List (String × Json) → Nat
  | [] => 0
  | (_, value) :: rest => max value.depth (depthMembers rest)

end

def ofInt? (value : Int) : Option Json :=
  if isWord : IsWord value then some (.number (.whole value isWord)) else none

def Number.text : Number → List Char
  | .whole value _ => (toString value).toList
  | .binary value => value.jsonText

end Json

end Tariff
