
set_option autoImplicit false

namespace Tariff

abbrev Named (α : Type) := List (String × α)

namespace Named

variable {α : Type}

def put (name : String) (value : α) : Named α → Named α
  | [] => [(name, value)]
  | (first, held) :: rest =>
      if first = name then (first, value) :: rest else (first, held) :: put name value rest

def ofList (entries : List (String × α)) : Named α :=
  entries.foldl (fun named (name, value) => put name value named) []

theorem lookup_put (name other : String) (value : α) (named : Named α) :
    (put name value named).lookup other =
      if other = name then some value else named.lookup other := by
  have apart {a b : String} (different : ¬a = b) : (a == b) = false :=
    beq_eq_false_iff_ne.mpr different
  induction named with
  | nil => by_cases same : other = name <;> simp [put, List.lookup_cons, same, apart]
  | cons head rest ih =>
      obtain ⟨first, held⟩ := head
      by_cases here : first = name
      · subst here
        by_cases same : other = first <;> simp [put, List.lookup_cons, same, apart]
      · by_cases same : other = first
        · subst same
          simp [put, here]
        · simp [put, List.lookup_cons, here, apart same, ih]

theorem put_absent (name : String) (value : α) (named : Named α)
    (absent : name ∉ named.map (·.1)) : put name value named = named ++ [(name, value)] := by
  induction named with
  | nil => rfl
  | cons head rest ih =>
      obtain ⟨first, held⟩ := head
      obtain ⟨different, later⟩ := List.ne_and_not_mem_of_not_mem_cons absent
      rw [put, if_neg (Ne.symm different), ih later, List.cons_append]

theorem mem_put {name : String} {value : α} {named : Named α} {entry : String × α}
    (member : entry ∈ put name value named) : entry = (name, value) ∨ entry ∈ named := by
  induction named with
  | nil => exact .inl (List.mem_singleton.mp member)
  | cons head rest ih =>
      obtain ⟨first, held⟩ := head
      by_cases here : first = name
      · rw [put, if_pos here, List.mem_cons, here] at member
        exact member.imp_right (List.mem_cons_of_mem _)
      · rw [put, if_neg here, List.mem_cons] at member
        rcases member with same | later
        · exact .inr (same ▸ List.mem_cons_self)
        · exact (ih later).imp_right (List.mem_cons_of_mem _)

theorem lookup_absent {name : String} {named : Named α} (absent : name ∉ named.map (·.1)) :
    named.lookup name = none := by
  rw [List.lookup_eq_none_iff]
  intro entry member
  rw [bne_iff_ne]
  intro same
  exact absent (List.mem_map.mpr ⟨entry, member, same.symm⟩)

theorem mem_of_lookup {name : String} {value : α} {named : Named α}
    (found : named.lookup name = some value) : (name, value) ∈ named := by
  obtain ⟨before, after, split, _⟩ := List.lookup_eq_some_iff.mp found
  simp [split]

end Named

end Tariff
