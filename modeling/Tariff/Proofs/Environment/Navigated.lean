import Tariff.Proofs.Environment.Followed
import Tariff.Proofs.Json.Canonical
import Tariff.Proofs.Json.Readable

set_option autoImplicit false

namespace Tariff

theorem Path.of_string_intercalate (parts : List String) (nonempty : parts ≠ [])
    (undotted : ∀ part ∈ parts, '.' ∉ part.toList) : ofString (".".intercalate parts) = parts := by
  induction parts with
  | nil => exact absurd rfl nonempty
  | cons first rest ih =>
      obtain ⟨here, later⟩ := List.forall_mem_cons.mp undotted
      cases rest with
      | nil => rw [String.intercalate_singleton, of_string_undotted first here]
      | cons second rest =>
          rw [String.intercalate_cons_cons, of_string_dot, of_string_undotted first here,
            ih (List.cons_ne_nil second rest) later, List.singleton_append]

theorem Named.lookup_of_mem {α : Type} {named : Named α} (distinct : (named.map (·.1)).Nodup)
    {name : String} {value : α} (member : (name, value) ∈ named) : named.lookup name = some value := by
  obtain ⟨before, behind, parts⟩ := List.append_of_mem member
  rw [parts, List.map_append, List.nodup_append] at distinct
  refine List.lookup_eq_some_iff.mpr ⟨before, behind, parts, fun entry earlier => ?_⟩
  have apart : entry.1 ≠ name :=
    distinct.2.2 entry.1 (List.mem_map_of_mem earlier) name List.mem_cons_self
  simpa using apart.symm

namespace Json

-- Items are counted from zero, in digits without zeros in front.
inductive Leads : Json → Path → Json → Prop
  | here {json : Json} : Leads json [] json
  | member {members : Members} {key : String} {value target : Json} {rest : Path}
      (held : (key, value) ∈ members) (further : Leads value rest target) :
      Leads (.object members) (key :: rest) target
  | item {items : List Json} {place : Nat} {item target : Json} {rest : Path}
      (held : items[place]? = some item) (further : Leads item rest target) :
      Leads (.array items) (toString place :: rest) target

inductive IsContainer : Json → Prop
  | array (items : List Json) : IsContainer (.array items)
  | object (members : Members) : IsContainer (.object members)

theorem mem_numbered (start : Nat) (items : List Json) (key : String) (item : Json) :
    (key, item) ∈ numbered start items ↔
      ∃ place, items[place]? = some item ∧ key = toString (start + place) := by
  induction items generalizing start with
  | nil => simp [numbered]
  | cons first rest ih =>
      rw [numbered, List.mem_cons, ih]
      constructor
      · rintro (same | ⟨place, held, same⟩)
        · cases same
          exact ⟨0, rfl, rfl⟩
        · exact ⟨place + 1, held, by rw [same]; congr 1; omega⟩
      · rintro ⟨place, held, same⟩
        cases place with
        | zero =>
            cases held
            exact .inl (by rw [same, Nat.add_zero])
        | succ place => exact .inr ⟨place, held, by rw [same]; congr 1; omega⟩

theorem leads_cons (json target : Json) (key : String) (rest : Path) :
    json.Leads (key :: rest) target ↔
      ∃ child, (key, child) ∈ json.children ∧ child.Leads rest target := by
  constructor
  · intro leads
    cases leads with
    | member held further => exact ⟨_, held, further⟩
    | item held further =>
        exact ⟨_, (mem_numbered 0 _ _ _).mpr ⟨_, held, by rw [Nat.zero_add]⟩, further⟩
  · rintro ⟨child, held, further⟩
    cases json with
    | array items =>
        obtain ⟨place, found, same⟩ := (mem_numbered 0 items key child).mp held
        rw [Nat.zero_add] at same
        exact same ▸ .item found further
    | object members => exact .member held further
    | _ => cases held

section

variable {path : Path} {json : Json}

theorem Leads.followed {target : Json} (leads : json.Leads path target) (plain : json.Plain) :
    json.follow path = target.reading := by
  induction path generalizing json with
  | nil =>
      cases leads
      rfl
  | cons key rest ih =>
      obtain ⟨child, held, further⟩ := (leads_cons json target key rest).mp leads
      rw [follow, Named.lookup_of_mem plain.keys held]
      exact ih further (plain.children _ held).2

theorem leads_or_missing (path : Path) (json : Json) :
    (∃ target, json.Leads path target) ∨ json.follow path = .missing := by
  induction path generalizing json with
  | nil => exact .inl ⟨json, .here⟩
  | cons key rest ih =>
      rw [follow]
      cases found : json.children.lookup key with
      | none => exact .inr rfl
      | some child =>
          refine (ih child).imp_left ?_
          rintro ⟨target, leads⟩
          exact ⟨target, (leads_cons json target key rest).mpr ⟨child, Named.mem_of_lookup found, leads⟩⟩

theorem reading_found_iff (json : Json) (value : Scalar) :
    json.reading = .found value ↔ Scalar.ofJson? json = some value := by
  cases json with
  | number number => cases made : number.toDecimal? <;> simp [reading, Scalar.ofJson?, made]
  | _ => simp [reading, Scalar.ofJson?]

theorem reading_unavailable_iff (json : Json) :
    json.reading = .unavailable ↔ ∃ number, json = .number number ∧ number.toDecimal? = none := by
  cases json with
  | number number => cases made : number.toDecimal? <;> simp [reading, Scalar.ofJson?, made]
  | _ => simp [reading, Scalar.ofJson?]

theorem reading_missing_iff (json : Json) : json.reading = .missing ↔ json.IsContainer := by
  cases json with
  | array items => exact iff_of_true rfl (.array items)
  | object members => exact iff_of_true rfl (.object members)
  | number number =>
      refine iff_of_false ?_ (fun container => by cases container)
      cases made : number.toDecimal? <;> simp [reading, Scalar.ofJson?, made]
  | _ => exact iff_of_false (by simp [reading, Scalar.ofJson?]) (fun container => by cases container)

theorem follow_eq_iff (plain : json.Plain) {answer : Lookup} (present : answer ≠ .missing) :
    json.follow path = answer ↔ ∃ target, json.Leads path target ∧ target.reading = answer := by
  constructor
  · intro followed
    rcases leads_or_missing path json with ⟨target, leads⟩ | missing
    · exact ⟨target, leads, (leads.followed plain).symm.trans followed⟩
    · exact absurd (followed.symm.trans missing) present
  · rintro ⟨target, leads, reads⟩
    exact (leads.followed plain).trans reads

theorem follow_found_iff (plain : json.Plain) (value : Scalar) :
    json.follow path = .found value ↔
      ∃ target, json.Leads path target ∧ Scalar.ofJson? target = some value := by
  rw [follow_eq_iff plain (by simp)]
  simp only [reading_found_iff]

theorem follow_unavailable_iff (plain : json.Plain) :
    json.follow path = .unavailable ↔
      ∃ number, json.Leads path (.number number) ∧ number.toDecimal? = none := by
  rw [follow_eq_iff plain (by simp)]
  constructor
  · rintro ⟨target, leads, reads⟩
    obtain ⟨number, same, none⟩ := (reading_unavailable_iff target).mp reads
    exact ⟨number, same ▸ leads, none⟩
  · rintro ⟨number, leads, none⟩
    exact ⟨.number number, leads, (reading_unavailable_iff _).mpr ⟨number, rfl, none⟩⟩

theorem follow_missing_iff (plain : json.Plain) :
    json.follow path = .missing ↔ ∀ target, json.Leads path target → target.IsContainer := by
  constructor
  · intro missing target leads
    exact (reading_missing_iff target).mp ((leads.followed plain).symm.trans missing)
  · intro containers
    rcases leads_or_missing path json with ⟨target, leads⟩ | missing
    · exact (leads.followed plain).trans ((reading_missing_iff target).mpr (containers target leads))
    · exact missing

end

end Json

namespace Environment

-- Where nothing is bound below the root yet, every path below it is missing.
theorem bound_object_reads_as_navigated {root : String} (undottedRoot : '.' ∉ root.toList)
    (object : Json.Object) (undotted : object.toJson.Undotted) (canonical : object.toJson.Canonical)
    (environment : Environment) (segments : Path)
    (undottedSegments : ∀ segment ∈ segments, '.' ∉ segment.toList)
    (missing : environment.lookup (".".intercalate (root :: segments)) = .missing) :
    let read := (environment.bindObject root object).lookup (".".intercalate (root :: segments))
    (∀ value, read = .found value ↔
        ∃ target, object.toJson.Leads segments target ∧ Scalar.ofJson? target = some value) ∧
      (read = .unavailable ↔
        ∃ number, object.toJson.Leads segments (.number number) ∧ number.toDecimal? = none) ∧
      (read = .missing ↔ ∀ target, object.toJson.Leads segments target → target.IsContainer) := by
  have plain : object.toJson.Plain := ⟨undotted, canonical⟩
  have parts := Path.of_string_intercalate (root :: segments) (List.cons_ne_nil root segments)
    (List.forall_mem_cons.mpr ⟨undottedRoot, undottedSegments⟩)
  rw [lookup_followed undottedRoot plain parts missing]
  exact ⟨Json.follow_found_iff plain, Json.follow_unavailable_iff plain,
    Json.follow_missing_iff plain⟩

-- An item below an empty key, with a member that is no decimal.
def outing : Json.Object :=
  ⟨[("", .array [.null, .object
      [("1", .number (.binary (Binary64.twoTo96 false))), ("fee", .string "7")]])],
    List.pairwise_singleton _ _⟩

def clubOnly : Environment := empty.bind "registration.club" (.text "owls")

theorem bound_object_reads_as_navigated_outing :
    outing.toJson.Undotted ∧ outing.toJson.Canonical ∧
      (∀ segment ∈ ["", "1", "1", "fee"], '.' ∉ segment.toList) ∧
      clubOnly.lookup "camper..1.1" = .missing ∧
      (clubOnly.bindObject "camper" outing).lookup "camper..1.1" = .unavailable ∧
      clubOnly.lookup "camper..1.fee" = .missing ∧
      (clubOnly.bindObject "camper" outing).lookup "camper..1.fee" = .found (.text "7") := by
  have undotted : outing.toJson.Undotted :=
    ⟨by decide, ⟨trivial, ⟨by decide, trivial, by decide, trivial, trivial⟩, trivial⟩, trivial⟩
  have read : (Json.Document.ofJson outing.toJson).toJson outing.toJson.depth = .ok outing.toJson := rfl
  have canonical : outing.toJson.Canonical := Json.Document.to_json_canonical _ _ read
  have reads (segments : Path) (plainly : ∀ segment ∈ segments, '.' ∉ segment.toList)
      (missing : clubOnly.lookup (".".intercalate ("camper" :: segments)) = .missing) :=
    bound_object_reads_as_navigated (by decide) outing undotted canonical clubOnly segments plainly missing
  have unheld : (Json.Number.binary (Binary64.twoTo96 false)).toDecimal? = none := by decide +kernel
  refine ⟨undotted, canonical, by decide, rfl, ?_, rfl, ?_⟩
  · exact (reads ["", "1", "1"] (by decide) rfl).2.1.mpr
      ⟨_, .member (.head _) (@Json.Leads.item _ 1 _ _ _ rfl (.member (.head _) .here)), unheld⟩
  · exact ((reads ["", "1", "fee"] (by decide) rfl).1 (.text "7")).mpr
      ⟨_, .member (.head _) (@Json.Leads.item _ 1 _ _ _ rfl (.member (.tail _ (.head _)) .here)), rfl⟩

end Environment

end Tariff
