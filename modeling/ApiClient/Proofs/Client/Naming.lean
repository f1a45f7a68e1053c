import ApiClient.Proofs.Client.Preview
import ApiClient.Proofs.Manifest.Identifier

/-! What becomes of valid names when operations are renamed to methods.

A method name has the form of an identifier because the name of its operation has. It may be
reserved all the same, or be the name of the constructor: names are checked before the first
letter loses its case and the suffix is dropped. `originals` lists the operations that get a given
name, so a description has usable method names when no operation is an original of a name that is
taken.
-/

set_option autoImplicit false

namespace ApiClient.Client

open ApiClient.Manifest ApiClient.Tree ApiClient.TypeScript

def capitals : Text.CaseRun := ⟨0x41, 0x5A, 1, 32⟩

theorem caseRuns_eq_cons : Text.caseRuns = capitals :: Text.caseRuns.tail := rfl

theorem find?_caseRuns_of_basic {c : Char} (basic : c.toNat < 0x80) :
    Text.caseRuns.find? (·.covers c.toNat) = if 'A' ≤ c ∧ c ≤ 'Z' then some capitals else none := by
  have far : ∀ run ∈ Text.caseRuns.tail, 0x80 ≤ run.first := by decide +kernel
  have others : Text.caseRuns.tail.find? (·.covers c.toNat) = none := by
    refine List.find?_eq_none.2 fun run member => ?_
    have := far run member
    simp only [Text.CaseRun.covers, Bool.and_eq_true, decide_eq_true_eq]
    omega
  have covers : capitals.covers c.toNat = true ↔ 'A' ≤ c ∧ c ≤ 'Z' := by
    simp only [Text.CaseRun.covers, Bool.and_eq_true, decide_eq_true_eq, beq_iff_eq]
    exact and_iff_left (Nat.mod_one _)
  rw [caseRuns_eq_cons, List.find?_cons, others]
  split <;> simp_all

theorem lowerCase_of_basic {c : Char} (basic : c.toNat < 0x80) :
    Text.lowerCase c = [c.toLower] := by
  have plain : c.toNat ≠ 0x130 := by omega
  rw [Text.lowerCase, if_neg plain, find?_caseRuns_of_basic basic]
  have moved := toNat_toLower c
  by_cases upper : 'A' ≤ c ∧ c ≤ 'Z'
  · have valid : (c.toNat + 32).isValidChar := .inl (by omega)
    rw [if_pos upper] at moved ⊢
    simp only [← Char.toNat_inj, capitals, moved, List.cons.injEq, and_true]
    change (Char.ofNat (c.toNat + 32)).toNat = c.toNat + 32
    rw [Char.ofNat, dif_pos valid]
    rfl
  · rw [if_neg upper] at moved ⊢
    simp [Char.toNat_inj.1 moved]

def capitalized (name : String) : String :=
  match name.toList with
  | [] => ""
  | c :: rest => String.ofList (c.toUpper :: rest)

theorem capitalized_append {name : String} (full : name ≠ "") (ending : String) :
    capitalized (name ++ ending) = capitalized name ++ ending := by
  cases text : name.toList with
  | nil => exact absurd (String.toList_eq_nil_iff.1 text) full
  | cons c rest =>
    rw [← String.toList_inj]
    simp [capitalized, text]

section

variable {name : String}

theorem toList_camelCase (word : IsWord name) :
    ∃ c rest, name.toList = c :: rest ∧ (camelCase name).toList = c.toLower :: rest := by
  obtain ⟨c, rest, text, -, chars⟩ := (isWord_iff name).1 word
  have basic := ((isIdentifierChar_iff c).1 (chars c (List.mem_cons_self ..))).toNat_lt
  exact ⟨c, rest, text, by simp [camelCase, text, lowerCase_of_basic basic]⟩

theorem isWord_camelCase (word : IsWord name) : IsWord (camelCase name) := by
  obtain ⟨c, rest, text, lower⟩ := toList_camelCase word
  obtain ⟨first, others⟩ := List.forall_mem_cons.1 (text ▸ word.chars)
  have start := word.start c (by rw [text]; rfl)
  refine ⟨?_, ?_, ?_⟩
  · rw [ne_eq, ← String.toList_eq_nil_iff, lower]
    exact List.cons_ne_nil _ _
  · rw [lower]
    exact List.forall_mem_cons.2 ⟨first.toLower, others⟩
  · rw [lower]
    rintro _ ⟨⟩
    exact not_digit_toLower start

/-- A name that begins with no capital comes from itself and from its capitalized form only. -/
theorem camelCase_eq_iff (word : IsWord name) {target : String}
    (settled : ∀ c ∈ target.toList.head?, c.toLower = c) :
    camelCase name = target ↔ name = target ∨ name = capitalized target := by
  obtain ⟨c, rest, text, lower⟩ := toList_camelCase word
  cases shape : target.toList with
  | nil => simp [← String.toList_inj, text, lower, shape, capitalized]
  | cons first others =>
    have case := toLower_eq_iff_of_toLower_eq (settled first (by rw [shape]; rfl)) c
    simp only [← String.toList_inj, text, lower, shape, capitalized, String.toList_ofList,
      List.cons.injEq, case]
    exact or_and_right

theorem dropAsync_append {stem : String} (full : stem ≠ "") :
    dropAsync (stem ++ "Async") = stem := by
  have suffix : "Async".toList = asyncSuffix := rfl
  have filled : stem.toList ≠ [] := String.toList_eq_nil_iff.not.2 full
  simp [dropAsync, suffix, filled]

theorem dropAsync_outcome (name : String) :
    (∃ stem, stem ≠ "" ∧ name = stem ++ "Async" ∧ dropAsync name = stem) ∨
      dropAsync name = name ∧ ∀ stem, stem ≠ "" → name ≠ stem ++ "Async" := by
  by_cases suffixed : ∃ stem, stem ≠ "" ∧ name = stem ++ "Async"
  · obtain ⟨stem, full, rfl⟩ := suffixed
    exact .inl ⟨stem, full, rfl, dropAsync_append full⟩
  · have plain : ∀ stem, stem ≠ "" → name ≠ stem ++ "Async" :=
      fun stem full same => suffixed ⟨stem, full, same⟩
    refine .inr ⟨?_, plain⟩
    simp only [dropAsync]
    split
    · next cut =>
      refine absurd ?_ (plain (String.ofList _) (String.ofList_eq_empty_iff.not.2 cut.1))
      rw [← String.toList_inj, String.toList_append, String.toList_ofList]
      exact cut.2
    · rfl

theorem dropAsync_eq_iff {method : String} (full : method ≠ "")
    (kept : dropAsync method = method) :
    dropAsync name = method ↔ name = method ∨ name = method ++ "Async" := by
  constructor
  · intro dropped
    rcases dropAsync_outcome name with ⟨stem, -, rfl, left⟩ | ⟨same, -⟩
    · exact .inr (by rw [← dropped, left])
    · exact .inl (same.symm.trans dropped)
  · rintro (rfl | rfl)
    · exact kept
    · exact dropAsync_append full

theorem isWord_dropAsync (word : IsWord name) : IsWord (dropAsync name) := by
  rcases dropAsync_outcome name with ⟨stem, full, rfl, left⟩ | ⟨same, -⟩
  · rw [left]
    obtain ⟨-, chars, start⟩ := word
    rw [String.toList_append] at chars start
    refine ⟨full, fun c member => chars c (List.mem_append_left _ member), fun c first => ?_⟩
    exact start c (by rw [List.head?_append, Option.mem_def.1 first]; rfl)
  · rwa [same]

theorem isWord_methodName (word : IsWord name) (camel : Bool) :
    IsWord (methodName camel name) := by
  cases camel with
  | false => exact isWord_dropAsync word
  | true => exact isWord_dropAsync (isWord_camelCase word)

/-- The operations that get a method name: capitalized or not, with or without the suffix. -/
def originals (camel : Bool) (method : String) : List String :=
  let spellings := if camel then [method, capitalized method] else [method]
  spellings ++ spellings.map (· ++ "Async")

theorem methodName_eq_iff (word : IsWord name) (camel : Bool) {method : String}
    (full : method ≠ "") (settled : ∀ c ∈ method.toList.head?, c.toLower = c)
    (kept : dropAsync method = method) :
    methodName camel name = method ↔ name ∈ originals camel method := by
  rw [methodName, dropAsync_eq_iff full kept]
  cases camel with
  | false => simp [originals]
  | true =>
    have suffixed : ∀ c ∈ (method ++ "Async").toList.head?, c.toLower = c := by
      cases text : method.toList with
      | nil => exact absurd (String.toList_eq_nil_iff.1 text) full
      | cons first rest => simpa [text] using settled
    simp only [if_true, camelCase_eq_iff word settled, camelCase_eq_iff word suffixed,
      capitalized_append full, originals, List.map_cons, List.map_nil, List.cons_append,
      List.nil_append, List.mem_cons, List.not_mem_nil, or_false]
    exact or_assoc

end

def takenNames : List String :=
  "constructor" :: Identifier.reservedWords

theorem methodName_eq_taken_iff {name taken : String} (word : IsWord name) (camel : Bool)
    (member : taken ∈ takenNames) :
    methodName camel name = taken ↔ name ∈ originals camel taken := by
  have fixed : ∀ taken ∈ takenNames, taken ≠ "" ∧
      taken.toList.head?.all (fun c => c.toLower == c) = true ∧ dropAsync taken = taken := by
    decide +kernel
  obtain ⟨full, settled, kept⟩ := fixed taken member
  simp only [Option.all_eq_true, beq_iff_eq] at settled
  exact methodName_eq_iff word camel full settled kept

theorem forall_methods_iff {builder : FunctionBuilder} {name : String}
    {operations : List ApiOperation} {declaration : Declaration}
    (built : buildClass builder name operations = .ok declaration) (property : String → Prop) :
    (∀ method, .method method ∈ declaration.members → property method.name) ↔
      ∀ operation ∈ operations, property (builder.methodName operation) := by
  rcases buildClass_run builder name operations with
    ⟨_, _, -, failed⟩ | ⟨-, methods, each, made⟩
  · cases failed.symm.trans built
  · cases made.symm.trans built
    rw [← List.forall_mem_map (f := builder.methodName), ← each.names, List.forall_mem_map]
    simp [classWith]

/-- A client has usable method names exactly when no operation is an original of a name that is
taken. Nothing else that makes a name an identifier is lost. -/
theorem methodNames_usable_iff (source : Source) (manifest : ApiDescription)
    (valid : validate source manifest = .ok ()) (declaration : Declaration)
    (built : clientClass manifest = .ok declaration) :
    (∀ method, .method method ∈ declaration.members → IsWord method.name) ∧
    ((∀ method, .method method ∈ declaration.members →
        Identifier.problem? method.name = none ∧ method.name ≠ "constructor") ↔
      ∀ operation ∈ manifest.operations, ∀ taken ∈ takenNames,
        operation.name ∉ originals manifest.client.camelCase taken) := by
  have words : ∀ operation ∈ manifest.operations, IsWord operation.name := by
    intro operation member
    have wellFormed := ((validate_eq_ok_iff source manifest).1 valid).2.1 operation member
    exact ((problem?_eq_none_iff_isIdentifier _).1 wellFormed.name).toIsWord
  have methodWords : ∀ operation ∈ manifest.operations,
      IsWord (methodName manifest.client.camelCase operation.name) :=
    fun operation member => isWord_methodName (words operation member) _
  refine ⟨(forall_methods_iff built IsWord).2 methodWords, ?_⟩
  rw [forall_methods_iff built fun name =>
    Identifier.problem? name = none ∧ name ≠ "constructor"]
  refine forall₂_congr fun operation member => ?_
  have free : Identifier.problem? (methodName manifest.client.camelCase operation.name) = none ∧
      methodName manifest.client.camelCase operation.name ≠ "constructor" ↔
      methodName manifest.client.camelCase operation.name ∉ takenNames := by
    rw [(methodWords operation member).problem?_eq, takenNames, List.mem_cons, not_or, and_comm]
    simp
  change Identifier.problem? (methodName manifest.client.camelCase operation.name) = none ∧
      methodName manifest.client.camelCase operation.name ≠ "constructor" ↔ _
  rw [free]
  constructor
  · intro absent taken listed original
    exact absent ((methodName_eq_taken_iff (words operation member) _ listed).2 original ▸ listed)
  · intro none listed
    exact none _ listed ((methodName_eq_taken_iff (words operation member) _ listed).1 rfl)

/-- Names that stay usable: one is nothing but the suffix, one only contains a reserved word. -/
def usableDescription : ApiDescription where
  client := { name := "Heroes" }
  operations :=
    [{ name := "Async", method := .get, path := "heroes" },
     { name := "DeleteHeroAsync", method := .delete, path := "heroes/{id}",
       parameters := [{ name := "id", type := .int }] }]

theorem methodNames_usable_async :
    ∃ declaration, clientClass usableDescription = .ok declaration ∧
      ∀ method, .method method ∈ declaration.members →
        Identifier.problem? method.name = none ∧ method.name ≠ "constructor" := by
  have valid : validate ⟨"", "api.toml"⟩ usableDescription = .ok () := by rfl
  refine ⟨_, rfl, ?_⟩
  exact (methodNames_usable_iff _ _ valid _ rfl).2.2 (by decide +kernel)

/-- An operation named after its verb, and one whose method is taken for the constructor. -/
def verbNamedDescription : ApiDescription where
  client := { name := "Heroes" }
  operations :=
    [{ name := "Delete", method := .delete, path := "heroes/{id}",
       parameters := [{ name := "id", type := .int }] },
     { name := "Constructor", method := .get, path := "heroes" }]

theorem methodNames_verbNamed :
    validate ⟨"", "api.toml"⟩ verbNamedDescription = .ok () ∧
    ∃ declaration, clientClass verbNamedDescription = .ok declaration ∧
      (∃ method, .method method ∈ declaration.members ∧
        Identifier.problem? method.name = some .reserved) ∧
      ∃ method, .method method ∈ declaration.members ∧ method.name = "constructor" := by
  refine ⟨by rfl, _, rfl, ⟨_, .tail _ (.head _), ?_⟩, _, .tail _ (.tail _ (.head _)), ?_⟩
  · decide +kernel
  · decide +kernel

end ApiClient.Client
