import ApiClient.Client.Generator
import ApiClient.Proofs.Client.Class
import ApiClient.Proofs.TypeScript.Policy

/-! When a description that passes the checks has a client file.

Every operation of such a description has a method, and no method has a gap. So the only obstacle
is a method name that two operations share.
-/

set_option autoImplicit false

namespace ApiClient.Client

open ApiClient.Layout ApiClient.Manifest ApiClient.Tree ApiClient.TypeScript

section

variable {operation : ApiOperation}

theorem uriText_eq_ok (wellFormed : WellFormed operation) :
    ∃ text, uriText operation = .ok text := by
  obtain ⟨path, _, splice, _⟩ :=
    read?_spliceParts wellFormed.identifiers (UriTemplate.parts operation.path)
      (declared_of_mem_parts wellFormed.declared) []
  exact ⟨_, uriText_of_spliceParts splice⟩

theorem gapsOfArgs_bodyArgs : gapsOfArgs (bodyArgs operation) = [] := by
  unfold bodyArgs
  split
  · split <;> rfl
  · rfl

theorem requestBody_eq_ok (wellFormed : WellFormed operation) :
    ∃ body, requestBody operation = .ok body ∧ gapsOfBlock body = [] := by
  obtain ⟨text, built⟩ := uriText_eq_ok wellFormed
  cases verb : sender? operation.method with
  | none => exact ⟨[], by rw [requestBody, verb], rfl⟩
  | some sender =>
    refine ⟨_, by rw [requestBody, verb, built]; rfl, ?_⟩
    simp [gapsOfBlock, Statement.gaps, gapsOfOption, Expression.gaps, gapsOfArgs,
      gapsOfArgs_bodyArgs]

theorem FunctionBuilder.build_eq_ok (builder : FunctionBuilder)
    (wellFormed : WellFormed operation) :
    ∃ method, builder.build operation = .ok method ∧
      method.name = builder.methodName operation ∧ gapsOfBlock method.body = [] := by
  obtain ⟨body, built, full⟩ := requestBody_eq_ok wellFormed
  exact ⟨_, by rw [build, built]; rfl, rfl, full⟩

end

theorem buildClass_outcome (builder : FunctionBuilder) (name : String)
    (operations : List ApiOperation)
    (wellFormed : ∀ operation ∈ operations, WellFormed operation) :
    (∃ declaration, buildClass builder name operations = .ok declaration ∧
      declaration.isEnum = false ∧ declaration.gaps = [] ∧
      (operations.map builder.methodName).Nodup) ∨
    (∃ method first second,
      buildClass builder name operations = .error (.duplicateMethod method first second)) ∧
      ¬ (operations.map builder.methodName).Nodup := by
  rcases buildClass_run builder name operations with
    ⟨i, error, stop, failed⟩ | ⟨-, methods, each, made⟩
  · obtain ⟨operation, here⟩ := stop.stops.exists_operation
    obtain ⟨method, built, own, -⟩ :=
      builder.build_eq_ok (wellFormed operation (List.mem_of_getElem? here))
    obtain ⟨j, first, before, found, same, rfl⟩ := stop.stops.exists_of_built here built
    refine .inr ⟨⟨_, _, _, failed⟩, fun distinct => ?_⟩
    exact methodNames_nodup_iff.1 distinct j i _ _ before found here (same.trans own)
  · refine .inl ⟨_, made, rfl, ?_, each.names ▸ each.distinct⟩
    rw [Declaration.gaps, classWith, List.flatMap_cons, List.flatMap_map]
    refine List.append_eq_nil_iff.2 ⟨rfl, List.flatMap_eq_nil_iff.2 fun method inside => ?_⟩
    obtain ⟨operation, listed, built⟩ := each.exists_of_mem inside
    obtain ⟨method', built', -, full⟩ := builder.build_eq_ok (wellFormed operation listed)
    cases built.symm.trans built'
    exact full

def methodNames (manifest : ApiDescription) : List String :=
  manifest.operations.map fun operation => methodName manifest.client.camelCase operation.name

theorem preview_of_built {manifest : ApiDescription} {declaration : Declaration}
    (options : Options) (built : clientClass manifest = .ok declaration) :
    preview options manifest =
      ((declarationText typeMapper options declaration).mapError (.render declaration.name)).map
        fun code => (CodeFile.add { header := manifest.client.header } code).render := by
  rw [preview, built]
  change ((declarationText typeMapper options declaration).mapError _ >>= _) = _
  cases declarationText typeMapper options declaration <;> rfl

theorem preview_of_unbuilt {manifest : ApiDescription} {cause : ClientError} (options : Options)
    (unbuilt : clientClass manifest = .error cause) :
    preview options manifest = .error (.build cause) := by
  rw [preview, unbuilt]
  rfl

theorem preview_outcome (manifest : ApiDescription) (options : Options)
    (wellFormed : ∀ operation ∈ manifest.operations, WellFormed operation) :
    (∃ declaration text, clientClass manifest = .ok declaration ∧
      (∀ policy, preview (under policy options) manifest = .ok text) ∧
      (methodNames manifest).Nodup) ∨
    (∃ method first second,
      clientClass manifest = .error (.duplicateMethod method first second) ∧
      ∀ policy, preview (under policy options) manifest =
        .error (.build (.duplicateMethod method first second))) ∧
      ¬ (methodNames manifest).Nodup := by
  rcases buildClass_outcome ⟨typeMapper, manifest.client.camelCase⟩ manifest.client.name
    manifest.operations wellFormed with
    ⟨declaration, built, notEnum, full, distinct⟩ | ⟨⟨method, first, second, failed⟩, clash⟩
  · obtain ⟨code, rendered⟩ :=
      declarationText_of_gaps_eq_nil typeMapper options notEnum full
    refine .inl ⟨declaration, (CodeFile.add { header := manifest.client.header } code).render,
      built, fun policy => ?_, distinct⟩
    rw [preview_of_built _ built, rendered]
    rfl
  · exact .inr ⟨⟨method, first, second, failed, fun _ => preview_of_unbuilt _ failed⟩, clash⟩

/-- A description that passes the checks has a client file unless two operations share a method
name. Checking the class alone finds out, and the policy makes no difference. -/
theorem preview_error_iff_methodNames_clash (source : Source) (manifest : ApiDescription)
    (valid : validate source manifest = .ok ()) (options : Options) :
    ((∃ error, preview options manifest = .error error) ↔ ¬ (methodNames manifest).Nodup) ∧
    (∀ error, preview options manifest = .error error →
      ∃ method first second, error = .build (.duplicateMethod method first second)) ∧
    ((∃ declaration, configuredClass manifest.client manifest.operations = .ok declaration) ↔
      ∃ text, preview options manifest = .ok text) ∧
    ∀ text, preview options manifest = .ok text →
      ∀ policy, preview (under policy options) manifest = .ok text := by
  have wellFormed := ((validate_eq_ok_iff source manifest).1 valid).2.1
  have same : configuredClass manifest.client manifest.operations = clientClass manifest := rfl
  rw [same]
  rcases preview_outcome manifest options wellFormed with
    ⟨declaration, text, built, rendered, distinct⟩ |
    ⟨⟨method, first, second, failed, stopped⟩, clash⟩
  · have own : preview options manifest = .ok text := rendered options.unsupported
    rw [built, own]
    refine ⟨⟨nofun, fun clash => absurd distinct clash⟩, nofun,
      ⟨fun _ => ⟨text, rfl⟩, fun _ => ⟨declaration, rfl⟩⟩, ?_⟩
    rintro _ ⟨⟩ policy
    exact rendered policy
  · have own : preview options manifest =
        .error (.build (.duplicateMethod method first second)) := stopped options.unsupported
    rw [failed, own]
    refine ⟨⟨fun _ => clash, fun _ => ⟨_, rfl⟩⟩, ?_, ⟨nofun, nofun⟩, nofun⟩
    rintro _ ⟨⟩
    exact ⟨method, first, second, rfl⟩

/-- Names that differ as operations and clash as methods. -/
def clashingDescription : ApiDescription where
  client := { name := "Values" }
  operations :=
    [{ name := "GetAsync", method := .get, path := "values/{id}",
       parameters := [{ name := "id", type := .int }] },
     { name := "Get", method := .patch, path := "values" }]

theorem preview_error_clashing :
    ∃ method first second, preview .strict clashingDescription =
      .error (.build (.duplicateMethod method first second)) := by
  have valid : validate ⟨"", "api.toml"⟩ clashingDescription = .ok () := by rfl
  obtain ⟨fails, only, -⟩ :=
    preview_error_iff_methodNames_clash ⟨"", "api.toml"⟩ clashingDescription valid .strict
  obtain ⟨error, failed⟩ := fails.2 (by decide +kernel)
  obtain ⟨method, first, second, rfl⟩ := only error failed
  exact ⟨method, first, second, failed⟩

end ApiClient.Client
