import Tariff.Proofs.Environment.Followed
import Tariff.Proofs.Json.Canonical
import Tariff.Proofs.Pricing.Influence

set_option autoImplicit false

namespace Tariff

namespace Json

mutual

-- Items of an array keep their places, null or not.
def withoutNulls : Json → Json
  | .array items => .array (itemsWithoutNulls items)
  | .object members => .object (membersWithoutNulls members)
  | scalar => scalar

def itemsWithoutNulls : List Json → List Json
  | [] => []
  | item :: rest => item.withoutNulls :: itemsWithoutNulls rest

def membersWithoutNulls : List (String × Json) → List (String × Json)
  | [] => []
  | (_, .null) :: rest => membersWithoutNulls rest
  | (key, value) :: rest => (key, value.withoutNulls) :: membersWithoutNulls rest

end

theorem lookup_items_without_nulls (key : String) (place : Nat) (items : List Json) :
    (numbered place (itemsWithoutNulls items)).lookup key =
      ((numbered place items).lookup key).map withoutNulls := by
  induction items generalizing place with
  | nil => rfl
  | cons item rest ih =>
      rw [itemsWithoutNulls, numbered, numbered, List.lookup_cons, List.lookup_cons, ih]
      cases key == toString place with
      | true => rfl
      | false => rfl

-- No other member has the key of one that is left out.
theorem lookup_members_without_nulls (key : String) {members : Members}
    (distinct : (members.map (·.1)).Nodup) :
    (membersWithoutNulls members).lookup key =
      match members.lookup key with
      | some .null => none
      | found => found.map withoutNulls := by
  induction members with
  | nil => rfl
  | cons entry rest ih =>
      obtain ⟨first, value⟩ := entry
      obtain ⟨absent, later⟩ := List.nodup_cons.mp distinct
      have others := ih later
      by_cases here : key = first
      · subst here
        rw [Named.lookup_absent absent] at others
        cases value <;> simp [membersWithoutNulls, others]
      · cases value <;>
          simp [membersWithoutNulls, List.lookup_cons, beq_eq_false_iff_ne.mpr here, others]

end Json

def Lookup.present : Lookup → Lookup
  | .found .null => .missing
  | lookup => lookup

theorem Outcome.of_lookup_present (path : String) (default : Option Scalar) (lookup : Lookup) :
    ofLookup path default lookup.present = ofLookup path default lookup := by
  cases lookup with
  | found value => cases value <;> rfl
  | missing => rfl
  | unavailable => rfl

theorem Json.follow_without_nulls (path : Path) {json : Json} (plain : json.Plain) :
    (json.withoutNulls.follow path).present = (json.follow path).present := by
  induction path generalizing json with
  | nil => cases json <;> rfl
  | cons key rest ih =>
      have below (child : Json) (held : json.children.lookup key = some child) :=
        ih (plain.children _ (Named.mem_of_lookup held)).2
      rw [follow, follow]
      cases json with
      | array items =>
          rw [withoutNulls, children, lookup_items_without_nulls]
          cases held : (numbered 0 items).lookup key with
          | none => simp [children, held]
          | some child => simpa [children, held] using below child held
      | object members =>
          have distinct : (members.map (·.1)).Nodup := plain.keys
          rw [withoutNulls, children, lookup_members_without_nulls key distinct]
          cases held : members.lookup key with
          | none => simp [children, held]
          | some child =>
              have same := below child held
              cases child with
              | null =>
                  simp only [children, held]
                  cases rest <;> rfl
              | _ => simpa [children, held] using same
      | _ => rfl

structure Form.Undotted (form : Form) : Prop where
  campers : ∀ camper ∈ form.campers, camper.toJson.Undotted
  fields : form.fields.toJson.Undotted

namespace Pricing

theorem nulls_read_alike {root : String} (undotted : '.' ∉ root.toList) {object other : Json.Object}
    (plain : object.toJson.Plain) (alsoPlain : other.toJson.Plain)
    (same : object.toJson.withoutNulls = other.toJson.withoutNulls) (path : String) :
    Formula.ReadsAlike False Eq (Environment.empty.bindObject root object)
      (Environment.empty.bindObject root other) path := by
  obtain ⟨first, rest, parts⟩ := List.exists_cons_of_ne_nil (Path.of_string_ne_nil path)
  by_cases here : first = root
  · subst here
    intro default
    have missing : Environment.empty.lookup path = .missing := Binding.Members.read_nothing _
    rw [Environment.lookup_followed undotted plain parts missing,
      Environment.lookup_followed undotted alsoPlain parts missing, ← Outcome.of_lookup_present,
      ← Outcome.of_lookup_present path default (other.toJson.follow rest),
      ← Json.follow_without_nulls rest plain, ← Json.follow_without_nulls rest alsoPlain, same]
    exact .refl .same _
  · apply same_reads_alike
    refine Environment.lookup_root parts ?_
    rw [Environment.bind_object_apart undotted _ _ here, Environment.bind_object_apart undotted _ _ here]

theorem null_campers_read_alike {campers others : List Camper}
    (plain : ∀ camper ∈ campers, camper.toJson.Plain) (alsoPlain : ∀ camper ∈ others, camper.toJson.Plain)
    (same : Json.itemsWithoutNulls (campers.map Json.Object.toJson) =
      Json.itemsWithoutNulls (others.map Json.Object.toJson)) :
    List.Forall₂ (fun camper twin : Camper => ∀ path : String,
      Formula.ReadsAlike False Eq (Environment.empty.bindObject "camper" camper)
        (Environment.empty.bindObject "camper" twin) path) campers others := by
  induction campers generalizing others with
  | nil =>
      cases others with
      | nil => exact .nil
      | cons twin rest => cases same
  | cons camper rest ih =>
      cases others with
      | nil => cases same
      | cons twin others =>
          obtain ⟨here, later⟩ := List.cons.inj same
          obtain ⟨plainCamper, plainRest⟩ := List.forall_mem_cons.mp plain
          obtain ⟨plainTwin, plainOthers⟩ := List.forall_mem_cons.mp alsoPlain
          exact .cons (nulls_read_alike (by decide) plainCamper plainTwin here)
            (ih plainRest plainOthers later)

end Pricing

theorem null_answers_price_as_absent (strictness : Strictness) (draft : Draft) (rules : RuleSet)
    (checked : draft.check strictness = .ok rules) (form other : Form) (canonical : form.Canonical)
    (otherCanonical : other.Canonical) (undotted : form.Undotted) (otherUndotted : other.Undotted)
    (same : form.toJson.withoutNulls = other.toJson.withoutNulls) :
    rules.priceDetailed form = rules.priceDetailed other := by
  have named := Draft.check_well_named strictness draft rules checked
  have reaching := Draft.check_reaching strictness draft rules checked
  obtain ⟨campers, fields⟩ := List.cons.inj (Json.object.inj same)
  have sameCampers := Json.array.inj (Prod.mk.inj campers).2
  have sameFields : form.fields.toJson.withoutNulls = other.fields.toJson.withoutNulls :=
    congrArg Json.object fields
  have plain (camper : Camper) (member : camper ∈ form.campers) : camper.toJson.Plain :=
    ⟨undotted.campers camper member, canonical.campers camper member⟩
  have otherPlain (camper : Camper) (member : camper ∈ other.campers) : camper.toJson.Plain :=
    ⟨otherUndotted.campers camper member, otherCanonical.campers camper member⟩
  have alike : rules.ReadsAlike form other :=
    { registration := fun _ path _ =>
        Pricing.nulls_read_alike (by decide) ⟨undotted.fields, canonical.fields⟩
          ⟨otherUndotted.fields, otherCanonical.fields⟩ sameFields path
      campers := (Pricing.null_campers_read_alike plain otherPlain sameCampers).imp
        fun _ _ reads path _ => reads path }
  exact Pricing.price_detailed_alike named reaching alike

def lodgingDraft : Draft :=
  { camper :=
      [⟨"stay", none, .formula (.arithmetic .add
        [.field "camper.stay.nights" none, .field "camper.trips.1.fee" (some (.text "7"))])⟩]
    registration :=
      [⟨"total", none, .formula (.arithmetic .subtract
        [.sumOf "stay", .field "registration.discount" none])⟩]
    constants := .empty
    total := none }

def lodger (trip : List (String × Json)) (stay : List (String × Json)) : Camper :=
  ⟨[("stay", .object (("nights", .string "2") :: stay)), ("trips", .array [.null, .object trip])],
    List.pairwise_pair.mpr (show "stay" < "trips" by decide)⟩

def silentForm : Form := ⟨[lodger [] []], .empty⟩

def nullForm : Form :=
  ⟨[lodger [("fee", .null)] [("room", .null)]], Json.Object.empty.insert "discount" .null⟩

theorem null_answers_price_as_absent_lodger :
    ∃ rules, lodgingDraft.check .lenient = .ok rules ∧ silentForm.Canonical ∧ nullForm.Canonical ∧
      silentForm.Undotted ∧ nullForm.Undotted ∧
      silentForm.toJson.withoutNulls = nullForm.toJson.withoutNulls ∧
      rules.priceDetailed silentForm = rules.priceDetailed nullForm ∧
      (rules.price nullForm).total.render = "9" := by
  have read : Form.reader silentForm.toJson.depth (.ofJson silentForm.toJson) = .ok silentForm := rfl
  have nullRead : Form.reader nullForm.toJson.depth (.ofJson nullForm.toJson) = .ok nullForm := rfl
  have canonical : silentForm.Canonical := Form.reader_canonical read
  have nullCanonical : nullForm.Canonical := Form.reader_canonical nullRead
  have undotted : silentForm.Undotted := by
    refine ⟨List.forall_mem_singleton.mpr ?_, trivial⟩
    exact ⟨by decide, ⟨by decide, trivial, trivial⟩, by decide, ⟨trivial, trivial, trivial⟩, trivial⟩
  have nullUndotted : nullForm.Undotted := by
    refine ⟨List.forall_mem_singleton.mpr ?_, by decide, trivial, trivial⟩
    exact ⟨by decide, ⟨by decide, trivial, by decide, trivial, trivial⟩, by decide,
      ⟨trivial, ⟨by decide, trivial, trivial⟩, trivial⟩, trivial⟩
  refine ⟨_, rfl, canonical, nullCanonical, undotted, nullUndotted, rfl, ?_, by decide +kernel⟩
  exact null_answers_price_as_absent .lenient lodgingDraft _ rfl _ _ canonical nullCanonical undotted
    nullUndotted rfl

end Tariff
