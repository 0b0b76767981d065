import Tariff.Proofs.Json.Taken

set_option autoImplicit false

namespace Tariff

namespace Json

theorem depth_items_le_iff (items : List Json) (levels : Nat) :
    depthItems items ≤ levels ↔ ∀ item ∈ items, item.depth ≤ levels := by
  induction items with
  | nil => simp [depthItems]
  | cons item rest ih => rw [depthItems, Nat.max_le, ih, List.forall_mem_cons]

theorem depth_members_le_iff (members : Members) (levels : Nat) :
    depthMembers members ≤ levels ↔ ∀ member ∈ members, member.2.depth ≤ levels := by
  induction members with
  | nil => simp [depthMembers]
  | cons member rest ih => rw [depthMembers, Nat.max_le, ih, List.forall_mem_cons]

end Json

namespace Form

open Json

-- Answers are taken one by one, but after the campers their key is not taken again.
theorem fields_read {levels : Nat} {members : Members} (canonical : CanonicalMembers members)
    (within : depthMembers members ≤ levels) (campers : List Camper) (fields : Object) :
    Reader.foldMembers (Partial.read levels) ⟨some campers, fields⟩ (Document.ofMembers members) =
      if campersKey ∈ members.map (·.1) then .error .mismatch
      else .ok ⟨some campers, fields.insertAll members⟩ := by
  induction members generalizing fields with
  | nil => rfl
  | cons member rest ih =>
      obtain ⟨key, value⟩ := member
      obtain ⟨here, later⟩ := Nat.max_le.mp within
      rw [Document.ofMembers, Reader.foldMembers]
      by_cases again : key = campersKey
      · simp [Partial.read, again, bind, Except.bind]
      · have taken := Document.to_json_of_json value canonical.1 levels here
        have step : Partial.read levels ⟨some campers, fields⟩ key (.ofJson value) =
            .ok ⟨some campers, fields.insert key value⟩ := by
          simp [Partial.read, again, taken, bind, Except.bind, pure, Except.pure]
        have elsewhere : campersKey ∈ key :: rest.map (·.1) ↔ campersKey ∈ rest.map (·.1) := by
          simp [Ne.symm again]
        rw [step, List.map_cons]
        simp only [elsewhere]
        exact ih canonical.2 later (fields.insert key value)

theorem campers_read {campers : List Camper} (canonical : ∀ camper ∈ campers, camper.Canonical)
    {levels : Nat} (within : depthItems (campers.map Object.toJson) ≤ levels) :
    Partial.read (levels + 1) ⟨none, .empty⟩ campersKey
        (.ofJson (.array (campers.map Object.toJson))) = .ok ⟨some campers, .empty⟩ := by
  have each : ∀ camper ∈ campers,
      Reader.object levels (.ofJson (Object.toJson camper)) = .ok camper := by
    intro camper member
    refine Reader.object_of_json (canonical camper member) ?_
    exact (depth_items_le_iff _ _).mp within _ (List.mem_map_of_mem member)
  have read : Reader.list Reader.object (levels + 1)
      (.ofJson (.array (campers.map Object.toJson))) = .ok campers := Reader.read_items_of_items each
  simp [Partial.read, read, bind, Except.bind, pure, Except.pure]

theorem reader_of_json (form : Form) (canonical : form.Canonical) {levels : Nat}
    (within : form.toJson.depth ≤ levels) :
    reader levels (.ofJson form.toJson) =
      if campersKey ∈ form.fields.members.map (·.1) then .error .mismatch else .ok form := by
  cases levels with
  | zero => cases within
  | succ outer =>
      obtain ⟨inCampers, inFields⟩ := Nat.max_le.mp (Nat.le_of_succ_le_succ within)
      cases outer with
      | zero => cases inCampers
      | succ inner =>
          have first := campers_read canonical.campers (Nat.le_of_succ_le_succ inCampers)
          have fields := fields_read canonical.fields.2 inFields form.campers .empty
          rw [Object.insert_all_empty] at fields
          have members : Reader.foldMembers (Partial.read (inner + 1)) ⟨none, .empty⟩
              (Document.ofMembers ((campersKey, .array (form.campers.map Object.toJson)) ::
                form.fields.members)) =
              if campersKey ∈ form.fields.members.map (·.1) then .error .mismatch
              else .ok ⟨some form.campers, form.fields⟩ := by
            rw [Document.ofMembers, Reader.foldMembers, first]
            exact fields
          rw [reader, toJson, Document.ofJson, Reader.members, Reader.enter, members]
          split <;> rfl

theorem reader_text {form : Form} (canonical : form.Canonical) (whole : form.toJson.Whole)
    (within : form.toJson.depth ≤ Reader.textLevels) :
    reader.ofText form.toJson.text =
      if campersKey ∈ form.fields.members.map (·.1) then .error .mismatch else .ok form := by
  rw [Reader.of_text_text reader whole]
  exact form.reader_of_json canonical within

def answers (form : Form) : List Json :=
  form.campers.flatMap (fun camper => camper.members.map (·.2)) ++ form.fields.members.map (·.2)

theorem depth_le {form : Form} {levels : Nat} (shallow : ∀ answer ∈ form.answers, answer.depth ≤ levels) :
    form.toJson.depth ≤ levels + 3 := by
  have fields : depthMembers form.fields.members ≤ levels := by
    refine (depth_members_le_iff _ _).mpr fun member held => shallow _ ?_
    exact List.mem_append_right _ (List.mem_map_of_mem held)
  have campers : depthItems (form.campers.map Object.toJson) ≤ levels + 1 := by
    refine (depth_items_le_iff _ _).mpr fun item held => ?_
    obtain ⟨camper, isCamper, same⟩ := List.mem_map.mp held
    subst same
    refine Nat.succ_le_succ ((depth_members_le_iff _ _).mpr fun member answered => shallow _ ?_)
    exact List.mem_append_left _
      (List.mem_flatMap.mpr ⟨camper, isCamper, List.mem_map_of_mem answered⟩)
  exact Nat.succ_le_succ (Nat.max_le.mpr ⟨Nat.succ_le_succ campers, by omega⟩)

end Form

theorem form_survives_without_campers_field (form : Form) (canonical : form.Canonical)
    (whole : form.toJson.Whole) (shallow : ∀ answer ∈ form.answers, answer.depth < 100) :
    Form.reader.ofText form.toJson.text =
      if Form.campersKey ∈ form.fields.members.map (·.1) then .error .mismatch else .ok form := by
  have within : form.toJson.depth ≤ 99 + 3 :=
    Form.depth_le fun answer member => Nat.le_of_lt_succ (shallow answer member)
  exact Form.reader_text canonical whole (within.trans (by decide))

def family : Form :=
  ⟨[⟨[("campers", .array [.null, .number (.whole (-9223372036854775808) (by decide))])],
      List.pairwise_singleton _ _⟩],
    ⟨[("a\"b\n", .string "\\u0041\x01"),
      ("stay", .object [("", .number (.whole 18446744073709551615 (by decide)))])],
      List.pairwise_pair.mpr (show "a\"b\n" < "stay" by decide)⟩⟩

theorem form_survives_without_campers_field_family :
    family.Canonical ∧ family.toJson.Whole ∧ (∀ answer ∈ family.answers, answer.depth < 100) ∧
      Form.campersKey ∉ family.fields.members.map (·.1) ∧
      Form.reader.ofText family.toJson.text = .ok family := by
  have read : Form.reader family.toJson.depth (.ofJson family.toJson) = .ok family := rfl
  have canonical : family.Canonical := Form.reader_canonical read
  have whole : family.toJson.Whole :=
    ⟨⟨⟨⟨trivial, trivial, trivial⟩, trivial⟩, trivial⟩, trivial, ⟨trivial, trivial⟩, trivial⟩
  have shallow : ∀ answer ∈ family.answers, answer.depth < 100 := by decide
  have apart : Form.campersKey ∉ family.fields.members.map (·.1) := by decide
  refine ⟨canonical, whole, shallow, apart, ?_⟩
  exact (form_survives_without_campers_field family canonical whole shallow).trans (if_neg apart)

def countedForm : Form := Form.empty.setField "campers" (.number (.whole 5 (by decide)))

theorem campers_field_is_not_read_back :
    countedForm.Canonical ∧ countedForm.toJson.Whole ∧
      (∀ answer ∈ countedForm.answers, answer.depth < 100) ∧
      countedForm.toJson.text = "\x7b\"campers\":[],\"campers\":5\x7d" ∧
      Form.reader.ofText countedForm.toJson.text = .error .mismatch := by
  have canonical : countedForm.Canonical :=
    ⟨List.forall_mem_nil _, Json.Object.empty_canonical.insert "campers" trivial⟩
  have whole : countedForm.toJson.Whole := ⟨trivial, trivial, trivial⟩
  refine ⟨canonical, whole, by decide, by decide +kernel, ?_⟩
  exact (Form.reader_text canonical whole (by decide)).trans (if_pos (by decide))

end Tariff
