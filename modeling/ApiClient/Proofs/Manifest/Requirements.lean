import Mathlib.Data.List.Infix
import ApiClient.Proofs.Manifest.Identifier
import ApiClient.Proofs.Manifest.Validation

/-! What a description has to meet, and which error it gets.

`requirements` lists what is asked of a description in the order in which it is checked. The checks
make their way through this list: they pass when every requirement is met, and otherwise the error
is that of the first one which is not. `Acceptable` says the same without an order.
-/

set_option autoImplicit false

namespace ApiClient.Manifest

/-- Each item of a list with those before it. -/
def withEarlier {α : Type} (items : List α) : List (List α × α) :=
  items.inits.zip items

theorem withEarlier_cons {α : Type} (item : α) (items : List α) :
    withEarlier (item :: items) =
      ([], item) :: (withEarlier items).map fun (earlier, later) => (item :: earlier, later) := by
  rw [withEarlier, List.inits_cons, List.zip_cons_cons, List.zip_map_left]
  rfl

inductive Requirement where
  | clientName (name : String)
  | operationName (operation : ApiOperation)
  | newOperation (earlier : List ApiOperation) (operation : ApiOperation)
  | parameterName (parameter : ApiParameter)
  | newParameter (operation : ApiOperation) (earlier : List ApiParameter)
      (parameter : ApiParameter)
  | oneBody (operation : ApiOperation)
  | declared (operation : ApiOperation) (wanted : String)

namespace Requirement

def Met : Requirement → Prop
  | clientName name => IsIdentifier name
  | operationName operation => IsIdentifier operation.name
  | newOperation earlier operation => ∀ other ∈ earlier, other.name ≠ operation.name
  | parameterName parameter => IsIdentifier parameter.name
  | newParameter _ earlier parameter =>
    ∀ other ∈ earlier, ¬ SameSpelling other.name parameter.name
  | oneBody operation => (operation.parameters.filter (·.fromBody)).length ≤ 1
  | declared operation wanted =>
    ∃ parameter ∈ operation.parameters, SameSpelling parameter.name wanted

def nameError (source : Source) (context name : String) : ManifestError :=
  source.invalidIdentifier name context
    (((Identifier.problem? name).map IdentifierProblem.reason).getD "")

def error (source : Source) : Requirement → ManifestError
  | clientName name => nameError source "client" name
  | operationName operation => nameError source "operation" operation.name
  | newOperation _ operation => source.duplicateOperation operation.name
  | parameterName parameter => nameError source "parameter" parameter.name
  | newParameter operation _ parameter =>
    source.invalid
      ("operation '" ++ operation.name ++ "' declares parameter '" ++ parameter.name ++
        "' more than once")
      (some parameter.name)
  | oneBody operation =>
    source.invalid ("operation '" ++ operation.name ++ "' has more than one body parameter")
      (some operation.name)
  | declared operation wanted => source.unknownUriVariable operation.name operation.path wanted

end Requirement

def ApiOperation.parameterRequirements (operation : ApiOperation) :
    List ApiParameter × ApiParameter → List Requirement
  | (earlier, parameter) => [.parameterName parameter, .newParameter operation earlier parameter]

def ApiOperation.requirements : List ApiOperation × ApiOperation → List Requirement
  | (earlier, operation) =>
    [.operationName operation, .newOperation earlier operation] ++
    (withEarlier operation.parameters).flatMap operation.parameterRequirements ++
    [.oneBody operation] ++
    (UriTemplate.variableNames operation.path).map (.declared operation)

def ApiDescription.requirements (manifest : ApiDescription) : List Requirement :=
  .clientName manifest.client.name ::
    (withEarlier manifest.operations).flatMap ApiOperation.requirements

/-- A description that meets all requirements, said without their order. -/
structure Acceptable (manifest : ApiDescription) : Prop where
  client : IsIdentifier manifest.client.name
  operations : ∀ operation ∈ manifest.operations, IsIdentifier operation.name
  parameters : ∀ operation ∈ manifest.operations, ∀ parameter ∈ operation.parameters,
    IsIdentifier parameter.name
  distinctOperations : manifest.operations.Pairwise fun first second => first.name ≠ second.name
  distinctParameters : ∀ operation ∈ manifest.operations,
    operation.parameters.Pairwise fun first second => ¬ SameSpelling first.name second.name
  oneBody : ∀ operation ∈ manifest.operations,
    (operation.parameters.filter (·.fromBody)).length ≤ 1
  declared : ∀ operation ∈ manifest.operations,
    ∀ wanted ∈ UriTemplate.variableNames operation.path,
      ∃ parameter ∈ operation.parameters, SameSpelling parameter.name wanted

/-- What the checks of some requirements come to when they are made one after the other. -/
inductive Settles (source : Source) (requirements : List Requirement) : Checked → Prop where
  | passed : (∀ requirement ∈ requirements, requirement.Met) → Settles source requirements (.ok ())
  | failed {before after : List Requirement} {requirement : Requirement} :
      requirements = before ++ requirement :: after → (∀ earlier ∈ before, earlier.Met) →
      ¬ requirement.Met → Settles source requirements (.error (requirement.error source))

section

variable {source : Source}

namespace Settles

theorem nil : Settles source [] (.ok ()) :=
  .passed (List.forall_mem_nil _)

theorem one {requirement : Requirement} {outcome : Checked}
    (met : requirement.Met → outcome = .ok ())
    (unmet : ¬ requirement.Met → outcome = .error (requirement.error source)) :
    Settles source [requirement] outcome := by
  by_cases holds : requirement.Met
  · rw [met holds]
    exact .passed (List.forall_mem_singleton.2 holds)
  · rw [unmet holds]
    exact .failed (List.nil_append _).symm (List.forall_mem_nil _) holds

theorem append {first second : List Requirement} {outcome : Checked} {next : Unit → Checked}
    (left : Settles source first outcome) (right : Settles source second (next ())) :
    Settles source (first ++ second) (outcome >>= next) := by
  cases left with
  | passed met =>
    change Settles source (first ++ second) (next ())
    generalize next () = result at right ⊢
    cases right with
    | passed others => exact .passed (List.forall_mem_append.2 ⟨met, others⟩)
    | @failed before after requirement split earlier unmet =>
      have whole : first ++ second = (first ++ before) ++ requirement :: after := by
        rw [split, List.append_assoc]
      exact .failed whole (List.forall_mem_append.2 ⟨met, earlier⟩) unmet
  | @failed before after requirement split earlier unmet =>
    have whole : first ++ second = before ++ requirement :: (after ++ second) := by
      rw [split, List.append_assoc, List.cons_append]
    exact .failed whole earlier unmet

theorem name (requirement : Requirement) {context name : String}
    (met : requirement.Met ↔ IsIdentifier name)
    (wrong : requirement.error source = Requirement.nameError source context name) :
    Settles source [requirement] (checkName source context name) := by
  rw [← problem?_eq_none_iff_isIdentifier] at met
  refine .one (fun holds => ?_) (fun fails => ?_)
  · rw [checkName, met.1 holds]
  · obtain ⟨problem, found⟩ := Option.ne_none_iff_exists'.1 (met.not.1 fails)
    rw [checkName, found, wrong, Requirement.nameError, found]
    rfl

theorem guard (requirement : Requirement) {rest : List Requirement} {wrong : Prop}
    [Decidable wrong] {next : Checked} (unmet : wrong ↔ ¬ requirement.Met)
    (later : Settles source rest next) :
    Settles source (requirement :: rest)
      (if wrong then (do throw (requirement.error source); next) else next) := by
  by_cases fails : wrong
  · rw [if_pos fails]
    exact .failed (List.nil_append _).symm (List.forall_mem_nil _) (unmet.1 fails)
  · rw [if_neg fails]
    have met : requirement.Met := by_contra fun missing => fails (unmet.2 missing)
    have passed : Settles source [requirement] (.ok ()) :=
      .passed (List.forall_mem_singleton.2 met)
    change Settles source ([requirement] ++ rest) (Except.ok () >>= fun _ => next)
    exact passed.append later

/-- The first requirement that is not met is the only one with nothing unmet before it. -/
theorem eq_error_iff {requirements : List Requirement} {outcome : Checked}
    (settles : Settles source requirements outcome) (error : ManifestError) :
    outcome = .error error ↔
      ∃ before requirement after, requirements = before ++ requirement :: after ∧
        (∀ earlier ∈ before, earlier.Met) ∧ ¬ requirement.Met ∧
        error = requirement.error source := by
  constructor
  · intro failed
    cases settles with
    | passed met => cases failed
    | failed split earlier unmet =>
      cases failed
      exact ⟨_, _, _, split, earlier, unmet, rfl⟩
  · rintro ⟨before, requirement, after, split, earlier, unmet, rfl⟩
    cases settles with
    | passed met => exact absurd (met requirement (by simp [split])) unmet
    | @failed front back other cut met missing =>
      rcases List.append_eq_append_iff.1 (split.symm.trans cut) with
        ⟨between, rfl, rest⟩ | ⟨between, rfl, rest⟩
      · cases between with
        | nil =>
          cases rest
          rfl
        | cons first later =>
          cases rest
          exact absurd (met requirement (by simp)) unmet
      · cases between with
        | nil =>
          cases rest
          rfl
        | cons first later =>
          cases rest
          exact absurd (earlier other (by simp)) missing

end Settles

theorem checkVariables_settles (operation : ApiOperation) (names : List String) :
    Settles source (names.map (.declared operation)) (checkVariables source operation names) := by
  induction names with
  | nil => exact .nil
  | cons wanted rest ih =>
    refine .guard (.declared operation wanted) ?_ ih
    rw [Option.isNone_iff_eq_none, ← Option.not_isSome_iff_eq_none, parameter?_isSome_iff]
    simp only [Requirement.Met, Declared, sameName_iff]

theorem checkParameters_settles (operation : ApiOperation) (before rest : List ApiParameter) :
    Settles source
      ((withEarlier rest).flatMap fun (earlier, parameter) =>
        operation.parameterRequirements (before ++ earlier, parameter))
      (checkParameters source operation.name (before.map (·.name)).reverse rest) := by
  -- a parameter that was checked comes before all that follow
  induction rest generalizing before with
  | nil => exact .nil
  | cons parameter rest ih =>
    have later := ih (before ++ [parameter])
    simp only [List.append_assoc, List.singleton_append, List.map_append, List.map_cons,
      List.map_nil, List.reverse_append, List.reverse_cons, List.reverse_nil, List.nil_append]
      at later
    simp only [withEarlier_cons, List.flatMap_cons, List.flatMap_map, List.append_nil,
      ApiOperation.parameterRequirements, List.cons_append, List.nil_append]
    refine .append (.name (.parameterName parameter) Iff.rfl rfl) ?_
    refine .guard (.newParameter operation before parameter) ?_ later
    simp only [Requirement.Met, List.any_eq_true, List.mem_reverse, List.mem_map, not_forall,
      not_not, ← sameName_iff, exists_prop, sameName_comm _ parameter.name]
    constructor
    · rintro ⟨_, ⟨other, member, rfl⟩, same⟩
      exact ⟨other, member, same⟩
    · rintro ⟨other, member, same⟩
      exact ⟨other.name, ⟨other, member, rfl⟩, same⟩

theorem checkOperation_settles (earlier : List ApiOperation) (operation : ApiOperation) :
    Settles source (ApiOperation.requirements (earlier, operation))
      (checkOperation source (earlier.map (·.name)).reverse operation) := by
  simp only [ApiOperation.requirements, List.append_assoc, List.cons_append, List.nil_append]
  refine .append (.name (.operationName operation) Iff.rfl rfl) ?_
  refine .guard (.newOperation earlier operation) ?_ ?_
  · simp [Requirement.Met]
  refine .append (checkParameters_settles operation [] operation.parameters) ?_
  refine .guard (.oneBody operation) ?_ (checkVariables_settles operation _)
  simp only [Requirement.Met, List.countP_eq_length_filter, Nat.not_le]

theorem checkOperations_settles (before rest : List ApiOperation) :
    Settles source
      ((withEarlier rest).flatMap fun (earlier, operation) =>
        ApiOperation.requirements (before ++ earlier, operation))
      (checkOperations source (before.map (·.name)).reverse rest) := by
  induction rest generalizing before with
  | nil => exact .nil
  | cons operation rest ih =>
    have later := ih (before ++ [operation])
    simp only [List.append_assoc, List.singleton_append, List.map_append, List.map_cons,
      List.map_nil, List.reverse_append, List.reverse_cons, List.reverse_nil, List.nil_append]
      at later
    simp only [withEarlier_cons, List.flatMap_cons, List.flatMap_map, List.append_nil]
    rw [checkOperations]
    exact .append (checkOperation_settles before operation) later

theorem validate_settles (manifest : ApiDescription) :
    Settles source manifest.requirements (validate source manifest) := by
  rw [validate, ApiDescription.requirements]
  exact .append (.name (.clientName manifest.client.name) Iff.rfl rfl)
    (checkOperations_settles [] manifest.operations)

theorem validate_eq_ok_iff_acceptable (manifest : ApiDescription) :
    validate source manifest = .ok () ↔ Acceptable manifest := by
  have apart (first second : String) :
      sameName first second = false ↔ ¬ SameSpelling first second := by
    rw [← sameName_iff, Bool.not_eq_true]
  rw [validate_eq_ok_iff, problem?_eq_none_iff_isIdentifier]
  constructor
  · rintro ⟨client, wellFormed, distinct⟩
    refine ⟨client, ?_, ?_, List.pairwise_map.1 distinct, ?_, ?_, ?_⟩
    · intro operation member
      exact (problem?_eq_none_iff_isIdentifier _).1 (wellFormed operation member).name
    · intro operation member parameter inside
      have valid := (wellFormed operation member).identifiers parameter inside
      exact (problem?_eq_none_iff_isIdentifier _).1 valid
    · intro operation member
      exact (wellFormed operation member).distinct.imp (apart _ _).1
    · intro operation member
      rw [← List.countP_eq_length_filter]
      exact (wellFormed operation member).oneBody
    · intro operation member wanted appears
      obtain ⟨parameter, inside, same⟩ := (wellFormed operation member).declared wanted appears
      exact ⟨parameter, inside, (sameName_iff _ _).1 same⟩
  · rintro ⟨client, operations, parameters, distinct, distinctParameters, oneBody, declared⟩
    refine ⟨client, fun operation member => ⟨?_, ?_, ?_, ?_, ?_⟩, List.pairwise_map.2 distinct⟩
    · exact (problem?_eq_none_iff_isIdentifier _).2 (operations operation member)
    · intro parameter inside
      exact (problem?_eq_none_iff_isIdentifier _).2 (parameters operation member parameter inside)
    · exact (distinctParameters operation member).imp (apart _ _).2
    · rw [List.countP_eq_length_filter]
      exact oneBody operation member
    · intro wanted appears
      obtain ⟨parameter, inside, same⟩ := declared operation member wanted appears
      exact ⟨parameter, inside, (sameName_iff _ _).2 same⟩

end

theorem DistinctNames.parameter?_only {operation : ApiOperation} {wanted : String}
    (distinct : DistinctNames operation.parameters)
    (declared : Declared operation.parameters wanted) :
    ∃ before parameter after, operation.parameters = before ++ parameter :: after ∧
      SameSpelling parameter.name wanted ∧
      (∀ other ∈ before ++ after, ¬ SameSpelling other.name wanted) ∧
      operation.parameter? wanted = some parameter := by
  obtain ⟨parameter, -, found, same⟩ := declared.parameter?_eq_some
  obtain ⟨-, before, after, split, earlier⟩ := List.find?_eq_some_iff_append.1 found
  rw [DistinctNames, split, List.pairwise_append, List.pairwise_cons] at distinct
  obtain ⟨-, ⟨apart, -⟩, -⟩ := distinct
  refine ⟨before, parameter, after, split, (sameName_iff _ _).1 same, ?_, found⟩
  simp only [← sameName_iff]
  intro other member clash
  rcases List.mem_append.1 member with inside | inside
  · simpa [clash] using earlier other inside
  · have alike := sameName_of_sameName same clash
    rw [apart other inside] at alike
    contradiction

/-- The checks accept exactly the acceptable descriptions, and otherwise report the first
requirement that is not met. In an accepted operation every variable has one parameter. -/
theorem validate_outcome (source : Source) (manifest : ApiDescription) :
    (validate source manifest = .ok () ↔ Acceptable manifest) ∧
    (∀ error, validate source manifest = .error error ↔
      ∃ before requirement after, manifest.requirements = before ++ requirement :: after ∧
        (∀ earlier ∈ before, earlier.Met) ∧ ¬ requirement.Met ∧
        error = requirement.error source) ∧
    (validate source manifest = .ok () → ∀ operation ∈ manifest.operations,
      ∀ wanted ∈ UriTemplate.variableNames operation.path,
        ∃ before parameter after, operation.parameters = before ++ parameter :: after ∧
          SameSpelling parameter.name wanted ∧
          (∀ other ∈ before ++ after, ¬ SameSpelling other.name wanted) ∧
          operation.parameter? wanted = some parameter) := by
  refine ⟨validate_eq_ok_iff_acceptable manifest, (validate_settles manifest).eq_error_iff, ?_⟩
  intro valid operation member wanted appears
  have wellFormed := ((validate_eq_ok_iff source manifest).1 valid).2.1 operation member
  exact wellFormed.distinct.parameter?_only (wellFormed.declared wanted appears)

def searchOperation : ApiOperation where
  name := "Search"
  method := .get
  path := "heroes/{ID:int}/powers?of={id}&like={Term?}"
  parameters := [{ name := "term", type := .string }, { name := "id", type := .int }]

theorem validate_outcome_search :
    validate ⟨"", "api.toml"⟩ { client := { name := "Heroes" }, operations := [searchOperation] } =
      .ok () ∧
    ∃ before parameter after, searchOperation.parameters = before ++ parameter :: after ∧
      SameSpelling parameter.name "ID" ∧
      (∀ other ∈ before ++ after, ¬ SameSpelling other.name "ID") ∧
      searchOperation.parameter? "ID" = some parameter := by
  have valid : validate ⟨"", "api.toml"⟩
      { client := { name := "Heroes" }, operations := [searchOperation] } = .ok () := by rfl
  exact ⟨valid, (validate_outcome _ _).2.2 valid searchOperation (List.mem_singleton_self _) "ID"
    (by decide +kernel)⟩

end ApiClient.Manifest
