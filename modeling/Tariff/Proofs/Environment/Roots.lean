import Tariff.Environment

/-! Binding a value is binding its scalars one after the other, which is what all facts about it go back
to. -/

set_option autoImplicit false

namespace Tariff

namespace Path

theorem split_dots_undotted (text : List Char) (undotted : '.' ∉ text) : splitDots text = [text] := by
  induction text with
  | nil => rfl
  | cons c rest ih =>
      obtain ⟨different, later⟩ := List.ne_and_not_mem_of_not_mem_cons undotted
      rw [splitDots, if_neg (Ne.symm different), ih later]

theorem of_string_undotted (name : String) (undotted : '.' ∉ name.toList) :
    ofString name = [name] := by
  rw [ofString, split_dots_undotted name.toList undotted, List.map_singleton, String.ofList_toList]

theorem of_string_dot (left right : String) :
    ofString (left ++ "." ++ right) = ofString left ++ ofString right := by
  have text : (left ++ "." ++ right).toList = left.toList ++ '.' :: right.toList := by simp
  rw [ofString, text, split_dots_append, List.map_append]
  rfl

end Path

namespace Binding.Members

structure Sequential (alike : (Members → Members) → (Members → Members) → Prop) : Prop where
  idle : alike id id
  next : ∀ {first second other another : Members → Members}, alike first other →
    alike second another → alike (second ∘ first) (another ∘ other)

section

variable {alike : (Members → Members) → (Members → Members) → Prop}

mutual

-- Binding a value below two paths is alike if binding a scalar below them is.
theorem bind_json_steps (sequential : Sequential alike) (path other : Path)
    (scalars : ∀ rest binding, alike (bind (path ++ rest) binding) (bind (other ++ rest) binding))
    (json : Json) : alike (bindJson path json) (bindJson other json) := by
  have here (binding : Binding) : alike (bind path binding) (bind other binding) := by
    simpa using scalars [] binding
  have below (rest : Path) (_ : rest ≠ []) := scalars rest
  cases json with
  | array items => exact bind_items_steps sequential path other below 0 items
  | object entries => exact bind_entries_steps sequential path other below entries
  | null => exact here _
  | bool value => exact here _
  | number value => exact here _
  | string value => exact here _

theorem bind_items_steps (sequential : Sequential alike) (path other : Path)
    (scalars : ∀ rest, rest ≠ [] → ∀ binding,
      alike (bind (path ++ rest) binding) (bind (other ++ rest) binding))
    (place : Nat) (items : List Json) :
    alike (bindItems path place items) (bindItems other place items) := by
  cases items with
  | nil => exact sequential.idle
  | cons item later =>
      refine sequential.next (bind_json_steps sequential _ _ ?_ item)
        (bind_items_steps sequential path other scalars (place + 1) later)
      intro rest binding
      simpa using scalars (toString place :: rest) (by simp) binding

theorem bind_entries_steps (sequential : Sequential alike) (path other : Path)
    (scalars : ∀ rest, rest ≠ [] → ∀ binding,
      alike (bind (path ++ rest) binding) (bind (other ++ rest) binding))
    (entries : List (String × Json)) :
    alike (bindEntries path entries) (bindEntries other entries) := by
  cases entries with
  | nil => exact sequential.idle
  | cons entry later =>
      obtain ⟨key, value⟩ := entry
      refine sequential.next (bind_json_steps sequential _ _ ?_ value)
        (bind_entries_steps sequential path other scalars later)
      intro rest binding
      have some : Path.ofString key ++ rest ≠ [] := by simp [Path.of_string_ne_nil]
      simpa using scalars (Path.ofString key ++ rest) some binding

end

end

structure Within (root : String) (change : Members → Members) : Prop where
  apart : ∀ members other, other ≠ root → (change members).lookup other = members.lookup other
  here : ∀ members others, members.lookup root = others.lookup root →
    (change members).lookup root = (change others).lookup root

theorem within_sequential (root : String) : Sequential fun change _ => Within root change where
  idle := ⟨fun _ _ _ => rfl, fun _ _ same => same⟩
  next inner outer :=
    { apart := fun members other different =>
        (outer.apart _ other different).trans (inner.apart members other different)
      here := fun members others same => outer.here _ _ (inner.here members others same) }

theorem bind_within (root : String) (rest : Path) (binding : Binding) :
    Within root (bind (root :: rest) binding) := by
  cases rest with
  | nil =>
      constructor
      · intro members other different
        rw [bind, Named.lookup_put, if_neg different]
      · intro members others _
        rw [bind, bind, Named.lookup_put, Named.lookup_put, if_pos rfl, if_pos rfl]
  | cons second rest =>
      constructor
      · intro members other different
        rw [bind, Named.lookup_put, if_neg different]
      · intro members others same
        rw [bind, bind, Named.lookup_put, Named.lookup_put, if_pos rfl, if_pos rfl, same]

theorem bind_json_within (root : String) (rest : Path) (json : Json) :
    Within root (bindJson (root :: rest) json) :=
  bind_json_steps (within_sequential root) (root :: rest) []
    (fun more binding => bind_within root (rest ++ more) binding) json

theorem bind_entries_within (root : String) (rest : Path) (entries : List (String × Json)) :
    Within root (bindEntries (root :: rest) entries) :=
  bind_entries_steps (within_sequential root) (root :: rest) []
    (fun more _ binding => bind_within root (rest ++ more) binding) entries

theorem read_root {members others : Members} {root : String}
    (same : members.lookup root = others.lookup root) (rest : Path) :
    read (root :: rest) members = read (root :: rest) others := by
  cases rest with
  | nil => rw [read, read, same]
  | cons second rest => rw [read, read, same]

end Binding.Members

namespace Environment

open Binding.Members

theorem lookup_root {environment other : Environment} {path root : String} {rest : Path}
    (parts : Path.ofString path = root :: rest)
    (same : environment.members.lookup root = other.members.lookup root) :
    environment.lookup path = other.lookup path := by
  rw [lookup, lookup, parts]
  exact read_root same rest

section

variable {root : String} (undotted : '.' ∉ root.toList)

include undotted

theorem bind_object_apart (environment : Environment) (object : Json.Object) {other : String}
    (different : other ≠ root) :
    (environment.bindObject root object).members.lookup other = environment.members.lookup other := by
  rw [bindObject, Path.of_string_undotted root undotted]
  exact (bind_entries_within root [] object.members).apart _ _ different

theorem bind_object_here {environment other : Environment}
    (same : environment.members.lookup root = other.members.lookup root) (object : Json.Object) :
    (environment.bindObject root object).members.lookup root =
      (other.bindObject root object).members.lookup root := by
  rw [bindObject, bindObject, Path.of_string_undotted root undotted]
  exact (bind_entries_within root [] object.members).here _ _ same

end

end Environment

end Tariff
