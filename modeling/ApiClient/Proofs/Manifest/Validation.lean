import Mathlib.Data.List.Pairwise
import ApiClient.Manifest.Validate

/-! Which descriptions pass the checks.

The checks run through lists with the names seen so far. What they accept does not depend on the
order: names that differ from each other, and operations that are well formed on their own.
-/

set_option autoImplicit false

namespace ApiClient.Manifest

theorem sameName_of_sameName {first second name : String} (left : sameName first name = true)
    (right : sameName second name = true) : sameName first second = true := by
  simp only [sameName, beq_iff_eq] at left right ⊢
  exact left.trans right.symm

theorem sameName_comm (first second : String) : sameName first second = sameName second first :=
  Bool.beq_comm

def DistinctNames (parameters : List ApiParameter) : Prop :=
  parameters.Pairwise fun first second => sameName first.name second.name = false

theorem DistinctNames.eq_of_sameName {parameters : List ApiParameter}
    (distinct : DistinctNames parameters) {first second : ApiParameter}
    (left : first ∈ parameters) (right : second ∈ parameters)
    (same : sameName first.name second.name = true) : first = second := by
  by_contra other
  -- a pairwise relation looks at one order of two elements only
  have : Std.Symm fun first second : ApiParameter => sameName first.name second.name = false :=
    ⟨fun first second apart => (sameName_comm second.name first.name).trans apart⟩
  have apart := List.Pairwise.forall distinct left right other
  rw [same] at apart
  contradiction

def Declared (parameters : List ApiParameter) (name : String) : Prop :=
  ∃ parameter ∈ parameters, sameName parameter.name name = true

theorem parameter?_isSome_iff (operation : ApiOperation) (name : String) :
    (operation.parameter? name).isSome = true ↔ Declared operation.parameters name := by
  rw [ApiOperation.parameter?, List.find?_isSome]
  rfl

theorem Declared.parameter?_eq_some {operation : ApiOperation} {name : String}
    (declared : Declared operation.parameters name) :
    ∃ parameter ∈ operation.parameters, operation.parameter? name = some parameter ∧
      sameName parameter.name name = true := by
  obtain ⟨parameter, found⟩ :=
    Option.isSome_iff_exists.1 ((parameter?_isSome_iff operation name).2 declared)
  exact ⟨parameter, List.mem_of_find?_eq_some found, found, by simpa using List.find?_some found⟩

structure WellFormed (operation : ApiOperation) : Prop where
  name : Identifier.problem? operation.name = none
  identifiers : ∀ parameter ∈ operation.parameters, Identifier.problem? parameter.name = none
  distinct : DistinctNames operation.parameters
  oneBody : operation.parameters.countP (·.fromBody) ≤ 1
  declared : ∀ name ∈ UriTemplate.variableNames operation.path, Declared operation.parameters name

section

variable (source : Source)

theorem Checked.bind_eq_ok_iff (first : Checked) (second : Unit → Checked) :
    (first >>= second) = .ok () ↔ first = .ok () ∧ second () = .ok () := by
  cases first with
  | error error => exact ⟨nofun, nofun⟩
  | ok => exact ⟨fun passed => ⟨rfl, passed⟩, fun both => both.2⟩

theorem Checked.unless_eq_ok_iff (wrong : Prop) [Decidable wrong] (error : ManifestError)
    (next : Checked) :
    (if wrong then (do throw error; next) else next) = .ok () ↔ ¬ wrong ∧ next = .ok () := by
  by_cases holds : wrong
  · rw [if_pos holds]
    exact ⟨nofun, fun both => absurd holds both.1⟩
  · rw [if_neg holds]
    exact ⟨fun passed => ⟨holds, passed⟩, fun both => both.2⟩

theorem checkName_eq_ok_iff (context name : String) :
    checkName source context name = .ok () ↔ Identifier.problem? name = none := by
  unfold checkName
  split <;> simp_all

theorem checkVariables_eq_ok_iff (operation : ApiOperation) (names : List String) :
    checkVariables source operation names = .ok () ↔
      ∀ name ∈ names, Declared operation.parameters name := by
  induction names with
  | nil => exact ⟨fun _ => nofun, fun _ => rfl⟩
  | cons name names ih =>
    rw [checkVariables]
    rw [Checked.unless_eq_ok_iff, ih, List.forall_mem_cons, ← parameter?_isSome_iff,
      Option.isSome_iff_ne_none, Option.isNone_iff_eq_none]

theorem checkParameters_eq_ok_iff (operation : String) (seen : List String)
    (parameters : List ApiParameter) :
    checkParameters source operation seen parameters = .ok () ↔
      (∀ parameter ∈ parameters, Identifier.problem? parameter.name = none) ∧
      DistinctNames parameters ∧
      ∀ parameter ∈ parameters, ∀ name ∈ seen, sameName parameter.name name = false := by
  induction parameters generalizing seen with
  | nil => simp [checkParameters, DistinctNames]
  | cons parameter rest ih =>
    rw [checkParameters, Checked.bind_eq_ok_iff, Checked.unless_eq_ok_iff, checkName_eq_ok_iff, ih]
    simp only [DistinctNames, List.pairwise_cons, List.forall_mem_cons, List.any_eq_true,
      not_exists, not_and, Bool.not_eq_true]
    constructor
    · rintro ⟨valid, fresh, identifiers, distinct, apart⟩
      refine ⟨⟨valid, identifiers⟩, ⟨fun other member => ?_, distinct⟩, fresh, ?_⟩
      · rw [sameName_comm]
        exact (apart other member).1
      · exact fun other member => (apart other member).2
    · rintro ⟨⟨valid, identifiers⟩, ⟨apart, distinct⟩, fresh, others⟩
      refine ⟨valid, fresh, identifiers, distinct, fun other member => ⟨?_, others other member⟩⟩
      rw [sameName_comm]
      exact apart other member

theorem checkOperation_eq_ok_iff (seen : List String) (operation : ApiOperation) :
    checkOperation source seen operation = .ok () ↔
      WellFormed operation ∧ operation.name ∉ seen := by
  rw [checkOperation, Checked.bind_eq_ok_iff, Checked.unless_eq_ok_iff, Checked.bind_eq_ok_iff,
    Checked.unless_eq_ok_iff, checkName_eq_ok_iff, checkParameters_eq_ok_iff,
    checkVariables_eq_ok_iff]
  constructor
  · rintro ⟨name, fresh, ⟨identifiers, distinct, -⟩, bodies, declared⟩
    exact ⟨⟨name, identifiers, distinct, Nat.not_lt.1 bodies, declared⟩, fresh⟩
  · rintro ⟨⟨name, identifiers, distinct, bodies, declared⟩, fresh⟩
    exact ⟨name, fresh, ⟨identifiers, distinct, nofun⟩, Nat.not_lt.2 bodies, declared⟩

theorem checkOperations_eq_ok_iff (seen : List String) (operations : List ApiOperation) :
    checkOperations source seen operations = .ok () ↔
      (∀ operation ∈ operations, WellFormed operation) ∧
      (operations.map (·.name)).Nodup ∧ ∀ operation ∈ operations, operation.name ∉ seen := by
  induction operations generalizing seen with
  | nil => simp [checkOperations]
  | cons operation rest ih =>
    rw [checkOperations, Checked.bind_eq_ok_iff, checkOperation_eq_ok_iff, ih,
      List.forall_mem_cons, List.forall_mem_cons]
    simp only [List.map_cons, List.nodup_cons, List.mem_map, List.mem_cons, not_or, not_exists,
      not_and]
    constructor
    · rintro ⟨⟨first, fresh⟩, others, distinct, apart⟩
      exact ⟨⟨first, others⟩, ⟨fun other member => (apart other member).1, distinct⟩, fresh,
        fun other member => (apart other member).2⟩
    · rintro ⟨⟨first, others⟩, ⟨apart, distinct⟩, fresh, unseen⟩
      exact ⟨⟨first, fresh⟩, others, distinct,
        fun other member => ⟨apart other member, unseen other member⟩⟩

theorem validate_eq_ok_iff (manifest : ApiDescription) :
    validate source manifest = .ok () ↔
      Identifier.problem? manifest.client.name = none ∧
      (∀ operation ∈ manifest.operations, WellFormed operation) ∧
      (manifest.operations.map (·.name)).Nodup := by
  rw [validate, Checked.bind_eq_ok_iff, checkName_eq_ok_iff, checkOperations_eq_ok_iff]
  simp

end

end ApiClient.Manifest
