import Tariff.Environment

set_option autoImplicit false

namespace Tariff

namespace Binding.Members

theorem read_bind (path : Path) (nonempty : path ≠ []) (binding : Binding) (members : Members) :
    read path (bind path binding members) = Binding.reading (some binding) := by
  induction path generalizing members with
  | nil => exact absurd rfl nonempty
  | cons first rest ih =>
      cases rest with
      | nil => simp [bind, read, Named.lookup_put]
      | cons second rest => simp [bind, read, Named.lookup_put, Binding.inner, ih]

-- The other path may end in a group on the way, leave it, or go on below the path.
theorem read_bind_apart (path other : Path) (different : other ≠ path) {left right : Binding}
    (insides : Binding.inner (some left) = Binding.inner (some right)) (members : Members) :
    read other (bind path left members) = read other (bind path right members) := by
  induction path generalizing other members with
  | nil => rfl
  | cons first rest ih =>
      cases rest with
      | nil =>
          cases other with
          | nil => rfl
          | cons root below =>
              by_cases here : root = first
              · subst here
                cases below with
                | nil => exact absurd rfl different
                | cons next below => simp [bind, read, Named.lookup_put, insides]
              · cases below <;> simp [bind, read, Named.lookup_put, here]
      | cons second rest =>
          cases other with
          | nil => rfl
          | cons root below =>
              by_cases here : root = first
              · subst here
                cases below with
                | nil => simp [bind, read, Named.lookup_put, Binding.reading]
                | cons next below =>
                    have elsewhere : next :: below ≠ second :: rest := by simpa using different
                    simp [bind, read, Named.lookup_put, Binding.inner, ih _ elsewhere]
              · cases below <;> simp [bind, read, Named.lookup_put, here]

theorem read_nothing (path : Path) : read path [] = .missing := by
  induction path with
  | nil => rfl
  | cons first rest ih =>
      cases rest with
      | nil => rfl
      | cons second rest => exact ih

-- What stands on the way becomes a group, so nothing is read there, and nothing below a binding that
-- is no group.
theorem read_bind_overlapping (path other : Path) (nonempty : path ≠ []) {binding : Binding}
    (single : Binding.inner (some binding) = []) (members : Members) (different : other ≠ path)
    (overlapping : other <+: path ∨ path <+: other) : read other (bind path binding members) = .missing := by
  induction path generalizing other members with
  | nil => exact absurd rfl nonempty
  | cons first rest ih =>
      cases other with
      | nil => rfl
      | cons root below =>
          obtain ⟨same, further⟩ : root = first ∧ (below <+: rest ∨ rest <+: below) := by
            rcases overlapping with before | behind
            · exact (List.cons_prefix_cons.mp before).imp_right .inl
            · exact ⟨(List.cons_prefix_cons.mp behind).1.symm, .inr (List.cons_prefix_cons.mp behind).2⟩
          subst same
          cases below with
          | nil =>
              cases rest with
              | nil => exact absurd rfl different
              | cons second rest => simp [bind, read, Named.lookup_put, Binding.reading]
          | cons next below =>
              cases rest with
              | nil => simp [bind, read, Named.lookup_put, single, read_nothing]
              | cons second rest =>
                  have elsewhere : next :: below ≠ second :: rest := by simpa using different
                  simp [bind, read, Named.lookup_put, Binding.inner, ih _ _ _ elsewhere further]

theorem read_bind_elsewhere (path other : Path) (notBefore : ¬other <+: path)
    (notBehind : ¬path <+: other) (binding : Binding) (members : Members) :
    read other (bind path binding members) = read other members := by
  induction path generalizing other members with
  | nil => exact absurd List.nil_prefix notBehind
  | cons first rest ih =>
      cases other with
      | nil => rfl
      | cons root below =>
          by_cases here : root = first
          · subst here
            rw [List.prefix_cons_inj] at notBefore notBehind
            cases rest with
            | nil => exact absurd List.nil_prefix notBehind
            | cons second rest =>
                cases below with
                | nil => exact absurd List.nil_prefix notBefore
                | cons next below =>
                    simp [bind, read, Named.lookup_put, Binding.inner, ih _ notBefore notBehind]
          · cases rest <;> cases below <;> simp [bind, read, Named.lookup_put, here]

theorem read_bind_single (path other : Path) (nonempty : path ≠ []) {binding : Binding}
    (single : Binding.inner (some binding) = []) (members : Members) :
    read other (bind path binding members) =
      if other = path then Binding.reading (some binding)
      else if other <+: path ∨ path <+: other then .missing
      else read other members := by
  split
  · rename_i same
    exact same ▸ read_bind path nonempty binding members
  · rename_i different
    split
    · rename_i overlapping
      exact read_bind_overlapping path other nonempty single members different overlapping
    · rename_i apart
      obtain ⟨notBefore, notBehind⟩ := not_or.mp apart
      exact read_bind_elsewhere path other notBefore notBehind binding members

end Binding.Members

namespace Environment

theorem last_binding_holds (environment : Environment) (path other : String) :
    (∀ scalar, (environment.bind path scalar).lookup other =
        if Path.ofString other = Path.ofString path then .found scalar
        else if Path.ofString other <+: Path.ofString path ∨
            Path.ofString path <+: Path.ofString other then .missing
        else environment.lookup other) ∧
      (environment.bindUnavailable path).lookup other =
        if Path.ofString other = Path.ofString path then .unavailable
        else if Path.ofString other <+: Path.ofString path ∨
            Path.ofString path <+: Path.ofString other then .missing
        else environment.lookup other := by
  have nonempty := Path.of_string_ne_nil path
  constructor
  · intro scalar
    exact Binding.Members.read_bind_single _ _ nonempty rfl environment.members
  · exact Binding.Members.read_bind_single _ _ nonempty rfl environment.members

end Environment

end Tariff
