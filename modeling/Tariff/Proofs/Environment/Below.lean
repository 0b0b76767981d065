import Tariff.Proofs.Environment.Roots

set_option autoImplicit false

namespace Tariff

namespace Binding.Members

theorem inner_bind (root : String) (path : Path) (nonempty : path ≠ []) (binding : Binding)
    (members : Members) :
    inner ((bind (root :: path) binding members).lookup root) =
      bind path binding (inner (members.lookup root)) := by
  cases path with
  | nil => exact absurd rfl nonempty
  | cons second rest => rw [bind, Named.lookup_put, if_pos rfl, inner]

-- What a change does below a root is what another does to the members of the group that stands there.
theorem inner_sequential (root : String) : Sequential fun change below =>
    ∀ members, inner ((change members).lookup root) = below (inner (members.lookup root)) where
  idle _ := rfl
  next first second members := (second _).trans (congrArg _ (first members))

theorem inner_bind_entries (root : String) (path : Path) (entries : List (String × Json))
    (members : Members) :
    inner ((bindEntries (root :: path) entries members).lookup root) =
      bindEntries path entries (inner (members.lookup root)) := by
  refine bind_entries_steps (inner_sequential root) (root :: path) path ?_ entries members
  intro rest nonempty binding
  exact inner_bind root (path ++ rest) (by simp [nonempty]) binding

theorem bind_entries_lookup (entries : List (String × Json))
    (undotted : ∀ entry ∈ entries, '.' ∉ entry.1.toList)
    (distinct : (entries.map (·.1)).Nodup) (key : String) (members : Members) :
    (bindEntries [] entries members).lookup key =
      match entries.lookup key with
      | some value => (bindJson [key] value members).lookup key
      | none => members.lookup key := by
  induction entries generalizing members with
  | nil => rfl
  | cons entry later ih =>
      obtain ⟨first, value⟩ := entry
      obtain ⟨absent, rest⟩ := List.nodup_cons.mp distinct
      have single : Path.ofString first = [first] :=
        Path.of_string_undotted first (undotted _ List.mem_cons_self)
      rw [bindEntries, List.nil_append, single,
        ih (fun entry member => undotted entry (List.mem_cons_of_mem _ member)) rest]
      by_cases here : key = first
      · subst here
        rw [Named.lookup_absent absent, List.lookup_cons_self]
      · rw [List.lookup_cons, beq_eq_false_iff_ne.mpr here]
        cases later.lookup key with
        | none => exact (bind_json_within first [] value).apart members key here
        | some other =>
            exact (bind_json_within key [] other).here _ _
              ((bind_json_within first [] value).apart members key here)

end Binding.Members

theorem Json.Members.Ascending.distinct {members : Json.Members} (ascending : members.Ascending) :
    (members.map (·.1)).Nodup := by
  rw [List.Nodup, List.pairwise_map]
  exact ascending.imp fun less => Std.ne_of_lt less

namespace Environment

theorem lookup_number {root key : String} (undottedRoot : '.' ∉ root.toList)
    {object : Json.Object} (undotted : ∀ entry ∈ object.members, '.' ∉ entry.1.toList)
    {number : Json.Number} (held : object.get? key = some (.number number)) :
    (empty.bindObject root object).lookup (root ++ "." ++ key) =
      match number.toDecimal? with
      | some value => .found (.number value)
      | none => .unavailable := by
  have member : (key, Json.number number) ∈ object.members := Named.mem_of_lookup held
  have path : Path.ofString (root ++ "." ++ key) = [root, key] := by
    rw [Path.of_string_dot, Path.of_string_undotted root undottedRoot,
      Path.of_string_undotted key (undotted _ member)]
    rfl
  rw [lookup, path, bindObject, Path.of_string_undotted root undottedRoot, Binding.Members.read,
    Binding.Members.read, Binding.Members.inner_bind_entries root [],
    Binding.Members.bind_entries_lookup _ undotted object.ascending.distinct]
  rw [Json.Object.get?] at held
  rw [held]
  dsimp only
  rw [Binding.Members.bindJson, Binding.Members.bind, Named.lookup_put, if_pos rfl, Scalar.ofJson?]
  · cases number.toDecimal? with
    | some value => rfl
    | none => rfl
  · intro items same
    cases same
  · intro entries same
    cases same

end Environment

end Tariff
