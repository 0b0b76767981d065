import Tariff.Proofs.Pricing.Sum

set_option autoImplicit false

namespace Tariff

namespace Pricing

def constantsEnvironment (rules : RuleSet) : Environment :=
  Environment.empty.bindObject "pricing" rules.constants

section

variable (rules : RuleSet) (form : Form)

theorem shared_reads_constants {path : String} {rest : Path}
    (parts : Path.ofString path = "pricing" :: rest) :
    (sharedEnvironment rules form).lookup path = (constantsEnvironment rules).lookup path :=
  Environment.lookup_root parts (shared_constants rules form)

theorem camper_reads_constants (camper : Camper) {path : String} {rest : Path}
    (parts : Path.ofString path = "pricing" :: rest) :
    (camperEnvironment rules form camper).lookup path = (constantsEnvironment rules).lookup path := by
  rw [← shared_reads_constants rules form parts]
  exact Environment.lookup_root parts (camper_shared rules form camper (by decide))

theorem registration_reads_constants (campers : List Amounts) {path : String} {rest : Path}
    (parts : Path.ofString path = "pricing" :: rest) :
    (registrationEnvironment rules form campers).lookup path =
      (constantsEnvironment rules).lookup path := by
  rw [← shared_reads_constants rules form parts]
  exact Environment.lookup_root parts
    (registration_shared rules form campers (by decide) (by decide))

theorem registration_counts (campers : List Amounts)
    (held : form.camperCount ≤ Decimal.maxMantissa) :
    ∃ count, (registrationEnvironment rules form campers).lookup "camper_count" =
        .found (.number count) ∧ count.value = form.camperCount := by
  refine ⟨⟨false, form.camperCount, 0, held, Nat.zero_le _⟩, ?_, ?_⟩
  · have whole : Decimal.ofNat? form.camperCount =
        some ⟨false, form.camperCount, 0, held, Nat.zero_le _⟩ := by
      simp [Decimal.ofNat?, Decimal.ofParts?, held]
    rw [registration_count, whole]
    rfl
  · simp [Decimal.value, Decimal.signed, ten_to_zero]

end

theorem add_all?_absent (total : Decimal) {amounts : List (Option Decimal)}
    (absent : none ∈ amounts) : addAll? total amounts = none := by
  cases added : addAll? total amounts with
  | none => rfl
  | some sum => simpa using add_all?_present added none absent

theorem add_all?_map_some (total : Decimal) (amounts : List Decimal) :
    addAll? total (amounts.map some) = amounts.foldlM Decimal.add? total := by
  simp only [addAll?, List.foldlM_map, Option.bind_some]

-- A sum reads as a number or is unavailable, so neither a default nor a null takes its place.
theorem sum_field (environment : Environment) {path : String} {sum : Option Decimal}
    (read : environment.lookup path = numberRead sum) (default : Option Scalar) :
    (Formula.field path default).evaluate environment = .error (.unavailable path) ∨
      ∃ value, environment.lookup path = .found (.number value) ∧
        (Formula.field path default).evaluate environment = .ok (.number value) := by
  rw [Formula.evaluate, read]
  cases sum with
  | none => exact .inl rfl
  | some value => exact .inr ⟨value, rfl, rfl⟩

theorem reaches_sum {camperRules : List String} {path : String} {rest : Path}
    (reaches : Reach.Reaches camperRules .registration path)
    (parts : Path.ofString path = Formula.sumRoot :: rest) :
    ∃ name ∈ camperRules, path = Formula.sumRoot ++ "." ++ name := by
  have root {other : String} {more : Path} (otherParts : Path.ofString path = other :: more) :
      other = Formula.sumRoot := (List.cons.inj (otherParts.symm.trans parts)).1
  cases reaches with
  | registration otherParts => exact absurd (root otherParts) (by decide)
  | constant otherParts => exact absurd (root otherParts) (by decide)
  | count => exact absurd (root (Path.of_string_undotted "camper_count" (by decide))) (by decide)
  | sum member => exact ⟨_, member, rfl⟩

end Pricing

open Pricing in
theorem form_cannot_touch_trusted_values (strictness : Strictness) (draft : Draft) (rules : RuleSet)
    (checked : draft.check strictness = .ok rules) (form : Form) :
    let quote := rules.price form
    let environment := registrationEnvironment rules form quote.campers
    (∀ path rest, Path.ofString path = "pricing" :: rest →
        (∀ camper ∈ form.campers, (camperEnvironment rules form camper).lookup path =
            (constantsEnvironment rules).lookup path) ∧
          environment.lookup path = (constantsEnvironment rules).lookup path) ∧
      (form.camperCount ≤ Decimal.maxMantissa → ∃ count,
        environment.lookup "camper_count" = .found (.number count) ∧
          count.value = form.camperCount) ∧
      (∀ rule ∈ rules.camper,
        (none ∈ quote.column rule.name →
            environment.lookup (Formula.sumRoot ++ "." ++ rule.name) = .unavailable) ∧
          ∀ amounts : List Decimal, quote.column rule.name = amounts.map some →
            environment.lookup (Formula.sumRoot ++ "." ++ rule.name) =
              match amounts.foldlM Decimal.add? .zero with
              | some sum => .found (.number sum)
              | none => .unavailable) ∧
      ∀ rule ∈ rules.registration, ∀ formula, rule.body = .ok formula →
        ∀ path ∈ formula.fields, ∀ rest, Path.ofString path = Formula.sumRoot :: rest →
          ∀ default, (Formula.field path default).evaluate environment = .error (.unavailable path) ∨
            ∃ sum, environment.lookup path = .found (.number sum) ∧
              (Formula.field path default).evaluate environment = .ok (.number sum) := by
  intro quote environment
  have named := Draft.check_well_named strictness draft rules checked
  have reaching := Draft.check_reaching strictness draft rules checked
  have read (rule : Rule) (member : rule ∈ rules.camper) :
      environment.lookup (Formula.sumRoot ++ "." ++ rule.name) =
        numberRead (addAll? .zero (quote.column rule.name)) := by
    rw [Quote.column, ← sum_of?_eq_add_all?]
    exact registration_sum rules form named quote.campers (List.mem_map_of_mem member)
  refine ⟨?_, registration_counts rules form quote.campers, ?_, ?_⟩
  · intro path rest parts
    exact ⟨fun camper _ => camper_reads_constants rules form camper parts,
      registration_reads_constants rules form quote.campers parts⟩
  · intro rule member
    rw [read rule member]
    constructor
    · intro absent
      rw [add_all?_absent .zero absent]
      rfl
    · intro amounts column
      rw [column, add_all?_map_some]
      cases amounts.foldlM Decimal.add? .zero with
      | none => rfl
      | some sum => rfl
  · intro rule member formula body path field rest parts default
    obtain ⟨name, isRule, isSum⟩ :=
      reaches_sum (reaching .registration rule member formula body path field) parts
    obtain ⟨camperRule, camperMember, sameName⟩ := List.mem_map.mp isRule
    have found := read camperRule camperMember
    rw [sameName, ← isSum] at found
    exact sum_field environment found default

-- A form that names every trusted root in its keys, with and without dots.
def hostileForm : Form :=
  { campers :=
      [((Json.Object.empty.insert "fee" (.string "2")).insert "" (.object
        [("campers.fee", .string "0")])).insert "campers.fee" (.string "0")]
    fields := (((Json.Object.empty.insert "camper_count" (.string "9")).insert "campers" (.object
      [("fee", .null)])).insert ".campers.fee" (.string "0")).insert "pricing" (.object
        [("night", .string "0")]) }

theorem form_cannot_touch_trusted_values_hostile :
    ∃ rules, { feeDraft with constants := Json.Object.empty.insert "night" (.bool true) }.check
        .lenient = .ok rules ∧
      let environment :=
        Pricing.registrationEnvironment rules hostileForm (rules.price hostileForm).campers
      environment.lookup "pricing.night" = .found (.bool true) ∧
        (∃ count, environment.lookup "camper_count" = .found (.number count) ∧ count.value = 1) ∧
        environment.lookup "campers.fee" = .found (.number ⟨false, 2, 0, by decide, by decide⟩) := by
  refine ⟨_, rfl, ?_⟩
  obtain ⟨constants, counted, sums, _⟩ := form_cannot_touch_trusted_values .lenient
    { feeDraft with constants := Json.Object.empty.insert "night" (.bool true) } _ rfl hostileForm
  have held : hostileForm.camperCount ≤ Decimal.maxMantissa := by decide
  refine ⟨?_, ?_, ?_⟩
  · exact (constants "pricing.night" ["night"] (by decide)).2
  · exact counted held
  · exact (sums _ (.head _)).2 [⟨false, 2, 0, by decide, by decide⟩] (by decide +kernel)

end Tariff
