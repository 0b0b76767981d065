import Tariff.Proofs.Formula.Related
import Tariff.Proofs.Pricing.Account
import Tariff.Proofs.RuleSet.Reach

set_option autoImplicit false

namespace Tariff.Pricing

def numberBinding : Option Decimal → Binding
  | some value => .leaf (.number value)
  | none => .unavailable

def numberRead (number : Option Decimal) : Lookup := Binding.reading (some (numberBinding number))

theorem bind_number_members (path : String) (number : Option Decimal) (environment : Environment) :
    (bindNumber path number environment).members =
      environment.members.bind (Path.ofString path) (numberBinding number) := by
  cases number with
  | some value => rfl
  | none => rfl

theorem bind_number_apart {path root : String} {rest : Path}
    (parts : Path.ofString path = root :: rest) (number : Option Decimal)
    (environment : Environment) {other : String} (different : other ≠ root) :
    (bindNumber path number environment).members.lookup other =
      environment.members.lookup other := by
  rw [bind_number_members, parts]
  exact (Binding.Members.bind_within root rest _).apart _ _ different

theorem bind_sums_apart (campers : List Amounts) (rules : List Rule) (environment : Environment)
    {other : String} (different : other ≠ Formula.sumRoot) :
    (bindSums campers rules environment).members.lookup other =
      environment.members.lookup other := by
  unfold bindSums
  induction rules generalizing environment with
  | nil => rfl
  | cons rule rest ih =>
      rw [List.foldl_cons, ih]
      exact bind_number_apart (Reach.sum_path_parts rule.name) _ environment different

theorem read_bind_sum (rule other : String) (binding : Binding) (members : Binding.Members) :
    Binding.Members.read [Formula.sumRoot, other] (members.bind [Formula.sumRoot, rule] binding) =
      if other = rule then Binding.reading (some binding)
      else Binding.Members.read [Formula.sumRoot, other] members := by
  simp only [Binding.Members.bind, Binding.Members.read, Named.lookup_put, if_pos, Binding.inner]
  split
  · rfl
  · rfl

-- The name may have been bound before, which the induction needs after its rule has passed.
theorem bind_sums_read_or (campers : List Amounts) (rules : List Rule) (environment : Environment)
    (undotted : ∀ rule ∈ rules, '.' ∉ rule.name.toList) {name : String}
    (undottedName : '.' ∉ name.toList) :
    (bindSums campers rules environment).lookup (Formula.sumRoot ++ "." ++ name) =
      if name ∈ rules.map (·.name) then numberRead (sumOf? campers name)
      else environment.lookup (Formula.sumRoot ++ "." ++ name) := by
  have parts (rule : String) (undotted : '.' ∉ rule.toList) :
      Path.ofString (Formula.sumRoot ++ "." ++ rule) = [Formula.sumRoot, rule] := by
    rw [Reach.sum_path_parts, Path.of_string_undotted rule undotted]
  induction rules generalizing environment with
  | nil => rfl
  | cons rule rest ih =>
      have bound := bind_number_members (Formula.sumRoot ++ "." ++ rule.name)
        (sumOf? campers rule.name) environment
      rw [parts rule.name (undotted rule List.mem_cons_self)] at bound
      have later := ih
        (bindNumber (Formula.sumRoot ++ "." ++ rule.name) (sumOf? campers rule.name) environment)
        fun other member => undotted other (List.mem_cons_of_mem _ member)
      unfold bindSums at later ⊢
      rw [List.foldl_cons, later, Environment.lookup, Environment.lookup, parts name undottedName,
        bound, read_bind_sum, List.map_cons]
      by_cases here : name = rule.name
      · subst here
        rw [if_pos rfl, if_pos List.mem_cons_self, numberRead, ite_self]
      · rw [if_neg here]
        simp only [List.mem_cons, here, false_or]

section

variable (rules : RuleSet) (form : Form)

theorem shared_constants :
    (sharedEnvironment rules form).members.lookup "pricing" =
      (Environment.empty.bindObject "pricing" rules.constants).members.lookup "pricing" :=
  Environment.bind_object_apart (by decide) _ form.fields (by decide)

theorem shared_registration :
    (sharedEnvironment rules form).members.lookup "registration" =
      (Environment.empty.bindObject "registration" form.fields).members.lookup "registration" := by
  refine Environment.bind_object_here (by decide) ?_ form.fields
  exact Environment.bind_object_apart (by decide) _ rules.constants (by decide)

theorem shared_without {root : String} (notConstants : root ≠ "pricing")
    (notRegistration : root ≠ "registration") :
    (sharedEnvironment rules form).members.lookup root = none := by
  unfold sharedEnvironment
  rw [Environment.bind_object_apart (by decide) _ form.fields notRegistration,
    Environment.bind_object_apart (by decide) _ rules.constants notConstants]
  rfl

theorem camper_shared (camper : Camper) {root : String} (notCamper : root ≠ "camper") :
    (camperEnvironment rules form camper).members.lookup root =
      (sharedEnvironment rules form).members.lookup root :=
  Environment.bind_object_apart (by decide) _ camper notCamper

theorem camper_own (camper : Camper) :
    (camperEnvironment rules form camper).members.lookup "camper" =
      (Environment.empty.bindObject "camper" camper).members.lookup "camper" := by
  refine Environment.bind_object_here (by decide) ?_ camper
  exact shared_without rules form (by decide) (by decide)

theorem registration_shared (campers : List Amounts) {root : String}
    (notCount : root ≠ "camper_count") (notSum : root ≠ Formula.sumRoot) :
    (registrationEnvironment rules form campers).members.lookup root =
      (sharedEnvironment rules form).members.lookup root := by
  unfold registrationEnvironment
  rw [bind_sums_apart campers rules.camper _ notSum]
  exact bind_number_apart (Path.of_string_undotted "camper_count" (by decide)) _ _ notCount

theorem registration_count (campers : List Amounts) :
    (registrationEnvironment rules form campers).lookup "camper_count" =
      numberRead (Decimal.ofNat? form.camperCount) := by
  have parts := Path.of_string_undotted "camper_count" (by decide)
  have root := bind_sums_apart campers rules.camper
    (bindNumber "camper_count" (Decimal.ofNat? form.camperCount) (sharedEnvironment rules form))
    (show "camper_count" ≠ Formula.sumRoot by decide)
  unfold registrationEnvironment
  rw [Environment.lookup_root parts root, Environment.lookup, bind_number_members, parts,
    Binding.Members.bind, Binding.Members.read, Named.lookup_put, if_pos rfl, numberRead]

theorem registration_sum (named : rules.WellNamed) (campers : List Amounts) {name : String}
    (member : name ∈ rules.camper.map (·.name)) :
    (registrationEnvironment rules form campers).lookup (Formula.sumRoot ++ "." ++ name) =
      numberRead (sumOf? campers name) := by
  obtain ⟨rule, found, same⟩ := List.mem_map.mp member
  have undotted : '.' ∉ name.toList := same ▸ named.undotted .camper rule found
  unfold registrationEnvironment
  rw [bind_sums_read_or campers rules.camper _ (named.undotted .camper) undotted, if_pos member]

end

section

variable {rules other : RuleSet} {form otherForm : Form}

variable {near : Decimal → Decimal → Prop}

theorem same_reads_alike {environment another : Environment} {path : String}
    (same : environment.lookup path = another.lookup path) :
    Formula.ReadsAlike False near environment another path := by
  intro default
  rw [same]
  exact .refl .same _

theorem shared_reads_alike (constants : rules.constants = other.constants) {path root : String}
    {rest : Path} (parts : Path.ofString path = root :: rest)
    (shared : root = "registration" ∨ root = "pricing")
    (fields : Formula.ReadsAlike False near (Environment.empty.bindObject "registration" form.fields)
      (Environment.empty.bindObject "registration" otherForm.fields) path) :
    Formula.ReadsAlike False near (sharedEnvironment rules form) (sharedEnvironment other otherForm)
      path := by
  rcases shared with isRegistration | isConstant
  · subst isRegistration
    exact .of_lookup (Environment.lookup_root parts (shared_registration rules form))
      (Environment.lookup_root parts (shared_registration other otherForm)) fields
  · subst isConstant
    apply same_reads_alike
    rw [Environment.lookup_root parts (shared_constants rules form), constants,
      Environment.lookup_root parts (shared_constants other otherForm)]

theorem camper_reads_alike (constants : rules.constants = other.constants) {camper another : Camper}
    {names : List String} {path : String} (reaches : Reach.Reaches names .camper path)
    (fields : Formula.ReadsAlike False near (Environment.empty.bindObject "registration" form.fields)
      (Environment.empty.bindObject "registration" otherForm.fields) path)
    (own : Formula.ReadsAlike False near (Environment.empty.bindObject "camper" camper)
      (Environment.empty.bindObject "camper" another) path) :
    Formula.ReadsAlike False near (camperEnvironment rules form camper)
      (camperEnvironment other otherForm another) path := by
  have fromShared {root : String} {rest : Path} (parts : Path.ofString path = root :: rest)
      (shared : root = "registration" ∨ root = "pricing") (notCamper : root ≠ "camper") :
      Formula.ReadsAlike False near (camperEnvironment rules form camper)
        (camperEnvironment other otherForm another) path :=
    .of_lookup (Environment.lookup_root parts (camper_shared rules form camper notCamper))
      (Environment.lookup_root parts (camper_shared other otherForm another notCamper))
      (shared_reads_alike constants parts shared fields)
  cases reaches with
  | registration parts => exact fromShared parts (.inl rfl) (by decide)
  | constant parts => exact fromShared parts (.inr rfl) (by decide)
  | camper parts =>
      exact .of_lookup (Environment.lookup_root parts (camper_own rules form camper))
        (Environment.lookup_root parts (camper_own other otherForm another)) own

theorem numbers_read_alike {environment another : Environment} {path : String}
    {number twin : Option Decimal} (here : environment.lookup path = numberRead number)
    (there : another.lookup path = numberRead twin) (numbers : Option.Rel near number twin) :
    Formula.ReadsAlike False near environment another path := by
  intro default
  rw [here, there]
  cases numbers with
  | some values => exact .ok (.number values)
  | none => exact .error _

theorem registration_reads_alike (named : rules.WellNamed) (otherNamed : other.WellNamed)
    (constants : rules.constants = other.constants) (counts : form.camperCount = otherForm.camperCount)
    {campers otherCampers : List Amounts} {path : String}
    (reaches : Reach.Reaches (rules.camper.map (·.name)) .registration path)
    (alsoReaches : Reach.Reaches (other.camper.map (·.name)) .registration path)
    (fields : Formula.ReadsAlike False near (Environment.empty.bindObject "registration" form.fields)
      (Environment.empty.bindObject "registration" otherForm.fields) path)
    (sums : ∀ name, path = Formula.sumRoot ++ "." ++ name →
      Option.Rel near (sumOf? campers name) (sumOf? otherCampers name)) :
    Formula.ReadsAlike False near (registrationEnvironment rules form campers)
      (registrationEnvironment other otherForm otherCampers) path := by
  have fromShared {root : String} {rest : Path} (parts : Path.ofString path = root :: rest)
      (shared : root = "registration" ∨ root = "pricing") (notCount : root ≠ "camper_count")
      (notSum : root ≠ Formula.sumRoot) :
      Formula.ReadsAlike False near (registrationEnvironment rules form campers)
        (registrationEnvironment other otherForm otherCampers) path :=
    .of_lookup
      (Environment.lookup_root parts (registration_shared rules form campers notCount notSum))
      (Environment.lookup_root parts
        (registration_shared other otherForm otherCampers notCount notSum))
      (shared_reads_alike constants parts shared fields)
  cases reaches with
  | registration parts => exact fromShared parts (.inl rfl) (by decide) (by decide)
  | constant parts => exact fromShared parts (.inr rfl) (by decide) (by decide)
  | count =>
      apply same_reads_alike
      rw [registration_count, registration_count, counts]
  | sum member =>
      have alsoMember := alsoReaches.sum_member rfl
      exact numbers_read_alike (registration_sum rules form named campers member)
        (registration_sum other otherForm otherNamed otherCampers alsoMember) (sums _ rfl)

end

section

variable {near : Decimal → Decimal → Prop} {environment another : Environment}

theorem amount_of_related (nearness : Nearness near)
    (rounds : ∀ a b, near a b → near (toAmount a) (toAmount b)) {rule other : Rule}
    (bodies : rule.body = other.body)
    (reads : ∀ formula, rule.body = .ok formula →
      ∀ path ∈ formula.fields, Formula.ReadsAlike False near environment another path)
    (respects : ∀ formula, rule.body = .ok formula → ∀ op ∈ formula.operations, op.Respects near) :
    Related False near (amountOf environment rule) (amountOf another other) := by
  unfold amountOf
  rw [← bodies]
  cases body : rule.body with
  | error defect => exact .error _
  | ok formula =>
      have numbers := Outcome.number_related nearness
        (Formula.evaluate_related nearness formula ⟨reads formula body, respects formula body⟩)
      dsimp only
      generalize Outcome.number (formula.evaluate environment) = left at numbers ⊢
      generalize Outcome.number (formula.evaluate another) = right at numbers ⊢
      cases numbers with
      | ok numbers => exact .ok (rounds _ _ numbers)
      | error failure => exact .error _
      | forgiven allowed => exact allowed.elim

theorem amount_of_congr {rule other : Rule} (bodies : rule.body = other.body)
    (reads : ∀ formula, rule.body = .ok formula →
      ∀ path ∈ formula.fields, Formula.ReadsAlike False Eq environment another path) :
    amountOf environment rule = amountOf another other :=
  (amount_of_related nearness_eq (fun _ _ => congrArg toAmount) bodies reads
    fun _ _ op _ => op.respects_eq).eq

end

theorem amount_of_field {environment : Environment} {rule : Rule} {path : String} {value : Decimal}
    (body : rule.body = .ok (.field path none))
    (read : environment.lookup path = .found (.number value)) :
    amountOf environment rule = .ok (toAmount value) := by
  rw [amountOf, body]
  dsimp only
  rw [Formula.evaluate, read]
  rfl

theorem amount_of_number_field {environment : Environment} {rule : Rule} {path : String}
    {number : Option Decimal} (body : rule.body = .ok (.field path none))
    (read : environment.lookup path = numberRead number) :
    (amountOf environment rule).toOption = number.map toAmount := by
  cases number with
  | some value =>
      rw [amount_of_field body read]
      rfl
  | none =>
      rw [amountOf, body]
      dsimp only
      rw [Formula.evaluate, read]
      rfl

theorem get?_lines (environment : Environment) (rules : List Rule)
    (distinct : (rules.map (·.name)).Nodup) {rule : Rule} (member : rule ∈ rules) :
    Amounts.get? (rules.map (lineOf environment)) rule.name =
      (amountOf environment rule).toOption := by
  induction rules with
  | nil => cases member
  | cons first rest ih =>
      obtain ⟨absent, later⟩ := List.nodup_cons.mp distinct
      have unfolded (name : String) :
          Amounts.get? ((first :: rest).map (lineOf environment)) name =
            if name = first.name then (amountOf environment first).toOption
            else Amounts.get? (rest.map (lineOf environment)) name := by
        by_cases here : name = first.name
        · simp [Amounts.get?, lineOf, here]
        · simp [Amounts.get?, lineOf, List.lookup_cons, here, beq_eq_false_iff_ne.mpr here]
      rw [unfolded]
      rcases List.mem_cons.mp member with same | inRest
      · rw [same, if_pos rfl]
      · have different : rule.name ≠ first.name := by
          intro same
          exact absent (List.mem_map.mpr ⟨rule, inRest, same⟩)
        rw [if_neg different, ih later inRest]

section

variable {rules : RuleSet} (named : rules.WellNamed) (form : Form)

include named

theorem price_campers : (rules.price form).campers = form.campers.map (camperAmounts rules form) :=
  congrArg (fun report : Report => report.quote.campers) (price_detailed_lines rules form named)

theorem camper_amounts_get? (camper : Camper) {rule : Rule}
    (member : rule ∈ rules.camper) :
    (camperAmounts rules form camper).get? rule.name =
      (amountOf (camperEnvironment rules form camper) rule).toOption :=
  get?_lines _ rules.camper (named.distinct .camper) member

theorem price_camper_amount (index : Nat) {rule : Rule} (member : rule ∈ rules.camper) :
    (rules.price form).camperAmount? index rule.name =
      (form.campers[index]?).bind fun camper =>
        (amountOf (camperEnvironment rules form camper) rule).toOption := by
  rw [Quote.camperAmount?, price_campers named form, List.getElem?_map, Option.bind_map]
  exact congrArg _ (funext fun camper => camper_amounts_get? named form camper member)

theorem price_registration :
    (rules.price form).registration = rules.registration.map
      (lineOf (registrationEnvironment rules form (rules.price form).campers)) := by
  rw [price_campers named form]
  exact congrArg (fun report : Report => report.quote.registration)
    (price_detailed_lines rules form named)

theorem price_registration_amount {rule : Rule} (member : rule ∈ rules.registration) :
    (rules.price form).registrationAmount? rule.name =
      (amountOf (registrationEnvironment rules form (rules.price form).campers) rule).toOption := by
  rw [Quote.registrationAmount?, price_registration named form]
  exact get?_lines _ rules.registration (named.distinct .registration) member

end

end Tariff.Pricing
