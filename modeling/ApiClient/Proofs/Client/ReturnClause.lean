import ApiClient.Client.Function
import ApiClient.Proofs.Tree.Parts
import ApiClient.Proofs.TypeScript.Nullable

/-! What stands behind the parentheses of a method.

A mark anywhere in the text of a return type leaves the type open. The marks of the text are those
of the type, so the types inside it decide the clause. Without marks the clause is the text of the
type, and only the name of no value leaves it out. A client method promises its response, so it
always has a clause.
-/

set_option autoImplicit false

namespace ApiClient.TypeScript

open ApiClient.Tree

/-- There is a nullable type or a wrapper inside a type, or it is one itself. -/
def HoldsOptional (type : TypeRef) : Prop :=
  ∃ part ∈ type.parts, part.isOptional = true

instance (type : TypeRef) : Decidable (HoldsOptional type) :=
  inferInstanceAs (Decidable (∃ part ∈ type.parts, part.isOptional = true))

def IsSpelled (word : String) (type : TypeRef) : Prop :=
  type.args = [] ∧ simpleName type.name = word

section Types

variable {type : TypeRef}

theorem isMarked_eq_false_iff :
    type.isMarked = false ↔ ∀ part ∈ type.parts, part.isOptional = false := by
  induction type with
  | named name nullable args ih =>
    rw [TypeRef.parts, List.forall_mem_cons, forall_mem_partsOfTypes, TypeRef.isMarked,
      Bool.or_eq_false_iff, anyMarked_eq_false_iff, isOptional_mk]
    exact and_congr_right fun _ => forall₂_congr ih

theorem not_holdsOptional_iff : ¬HoldsOptional type ↔ type.isMarked = false := by
  rw [isMarked_eq_false_iff, HoldsOptional]
  simp only [not_exists, not_and, Bool.not_eq_true]

theorem holdsOptional_iff : HoldsOptional type ↔ type.isMarked = true := by
  rw [← not_iff_not, not_holdsOptional_iff, Bool.not_eq_true]

/-- Without marks, a word that does not end in a closer is the text of a simple name only. -/
theorem typeText_eq_iff_isSpelled (unmarked : ¬HoldsOptional type) (word : String)
    (opened : word.toList.getLast? ∉ closers.map some) :
    typeMapper.type type = word ↔ IsSpelled word type := by
  obtain ⟨name, nullable, args⟩ := type
  obtain ⟨plain, -⟩ := Bool.or_eq_false_iff.1 (not_holdsOptional_iff.1 unmarked)
  obtain ⟨rfl, other⟩ := Bool.or_eq_false_iff.1 plain
  change spelling.type ⟨name, false, args⟩ = word ↔ args = [] ∧ simpleName name = word
  rcases spelling_plain other with ⟨rfl, simple⟩ | ⟨full, c, closer, last⟩
  · simp [simple]
  · refine iff_of_false ?_ fun spelled => full spelled.1
    rintro rfl
    exact opened (last ▸ List.mem_map_of_mem closer)

end Types

section Clauses

variable {method : Method} {type : TypeRef}

theorem returnClause_of_returns (regular : method.isConstructor = false)
    (returns : method.returnType = some type) :
    returnClause typeMapper method =
      if typeMapper.type type = "void" then ""
      else if nullableMark ∈ (typeMapper.type type).toList then ": any"
      else ": " ++ typeMapper.type type := by
  unfold returnClause
  rw [regular, returns]
  simp only [List.contains_iff_mem]

theorem unmarked_iff_not_holdsOptional (names : ∀ name ∈ type.names, Unmarked name) :
    Unmarked (typeMapper.type type) ↔ ¬HoldsOptional type := by
  rw [typeText_unmarked_iff type names, not_holdsOptional_iff]

theorem returnClause_of_holdsOptional (regular : method.isConstructor = false)
    (returns : method.returnType = some type) (names : ∀ name ∈ type.names, Unmarked name)
    (marked : HoldsOptional type) : returnClause typeMapper method = ": any" := by
  have mark : nullableMark ∈ (typeMapper.type type).toList := by
    by_contra unmarked
    exact (unmarked_iff_not_holdsOptional names).1 unmarked marked
  have valued : typeMapper.type type ≠ "void" := by
    intro void
    rw [void] at mark
    exact absurd mark (by decide)
  rw [returnClause_of_returns regular returns, if_neg valued, if_pos mark]

def clauseText (text : String) : String :=
  if text = "void" then "" else ": " ++ text

theorem clauseText_eq_empty_iff {text : String} : clauseText text = "" ↔ text = "void" := by
  unfold clauseText
  split_ifs with void <;> simp [void]

theorem clauseText_of_ne_void {text : String} (valued : text ≠ "void") :
    clauseText text = ": " ++ text :=
  if_neg valued

theorem clauseText_eq_any_iff {text : String} : clauseText text = ": any" ↔ text = "any" := by
  by_cases void : text = "void"
  · subst void
    decide
  · have clause : ": any" = ": " ++ "any" := by decide
    rw [clauseText_of_ne_void void, clause, String.append_right_inj]

theorem returnClause_of_not_holdsOptional (regular : method.isConstructor = false)
    (returns : method.returnType = some type) (names : ∀ name ∈ type.names, Unmarked name)
    (unmarked : ¬HoldsOptional type) :
    returnClause typeMapper method = clauseText (typeMapper.type type) := by
  have text : nullableMark ∉ (typeMapper.type type).toList :=
    (unmarked_iff_not_holdsOptional names).2 unmarked
  rw [returnClause_of_returns regular returns, if_neg text, clauseText]

end Clauses

end ApiClient.TypeScript

namespace ApiClient.Client

open ApiClient.Manifest ApiClient.Tree ApiClient.TypeScript

section Responses

variable {builder : FunctionBuilder} {operation : ApiOperation} {method : Method}

theorem FunctionBuilder.returns_of_build (built : builder.build operation = .ok method) :
    method.isConstructor = false ∧ method.returnType = some (responseTask operation) := by
  unfold FunctionBuilder.build at built
  cases body : requestBody operation with
  | error error =>
    rw [body] at built
    cases built
  | ok statements =>
    rw [body] at built
    cases built
    exact ⟨rfl, rfl⟩

def promisedText (operation : ApiOperation) : String :=
  operation.response.elim "void" typeMapper.type

theorem typeText_responseTask (operation : ApiOperation) :
    typeMapper.type (responseTask operation) = "Promise<" ++ promisedText operation ++ ">" := by
  unfold responseTask promisedText
  cases operation.response <;> rfl

theorem holdsOptional_responseTask :
    HoldsOptional (responseTask operation) ↔
      ∃ response ∈ operation.response, HoldsOptional response := by
  -- a task is no wrapper, and its only argument is the response
  have task : isWrapper "Task" 1 = false := by decide
  unfold responseTask
  cases operation.response with
  | none => exact iff_of_false (by decide) nofun
  | some response =>
    simp [holdsOptional_iff, TypeRef.generic, TypeRef.isMarked, TypeRef.anyMarked, task]

theorem unmarked_responseTask
    (names : ∀ response ∈ operation.response, ∀ name ∈ response.names, Unmarked name) :
    ∀ name ∈ (responseTask operation).names, Unmarked name := by
  unfold responseTask
  have task : Unmarked "Task" := by decide
  cases response : operation.response with
  | none => exact List.forall_mem_singleton.2 task
  | some type =>
    refine List.forall_mem_cons.2 ⟨task, forall_mem_namesOfTypes.2 ?_⟩
    exact List.forall_mem_singleton.2 (names type response)

theorem typeText_responseTask_ne_void (operation : ApiOperation) :
    typeMapper.type (responseTask operation) ≠ "void" := by
  rw [typeText_responseTask]
  intro void
  have first := congrArg (·.toList.head?) void
  simp at first

theorem returnClause_ne_empty (built : builder.build operation = .ok method) :
    returnClause typeMapper method ≠ "" := by
  obtain ⟨regular, returns⟩ := FunctionBuilder.returns_of_build built
  have valued := typeText_responseTask_ne_void operation
  rw [returnClause_of_returns regular returns, if_neg valued]
  split_ifs
  · decide
  · rw [← clauseText_of_ne_void valued]
    exact mt clauseText_eq_empty_iff.1 valued

end Responses

/-- The types inside a return type decide its clause. A mark on any of them leaves the type open,
and so does a type that is spelled `any`. -/
theorem returnClause_decided :
    (∀ (method : Method) (type : TypeRef), method.isConstructor = false →
      method.returnType = some type → (∀ name ∈ type.names, Unmarked name) →
      (returnClause typeMapper method = ": any" ↔ HoldsOptional type ∨ IsSpelled "any" type) ∧
      (¬HoldsOptional type →
        (returnClause typeMapper method = "" ↔ IsSpelled "void" type) ∧
        (¬IsSpelled "void" type →
          returnClause typeMapper method = ": " ++ typeMapper.type type))) ∧
    ∀ (builder : FunctionBuilder) (operation : ApiOperation) (method : Method),
      builder.build operation = .ok method →
      returnClause typeMapper method ≠ "" ∧
      ((∀ response ∈ operation.response, ∀ name ∈ response.names, Unmarked name) →
        ((∃ response ∈ operation.response, HoldsOptional response) →
          returnClause typeMapper method = ": any") ∧
        ((∀ response ∈ operation.response, ¬HoldsOptional response) →
          returnClause typeMapper method =
            ": " ++ ("Promise<" ++ operation.response.elim "void" typeMapper.type ++ ">"))) := by
  constructor
  · intro method type regular returns names
    by_cases marked : HoldsOptional type
    · have any := returnClause_of_holdsOptional regular returns names marked
      exact ⟨iff_of_true any (.inl marked), fun unmarked => absurd marked unmarked⟩
    · have void := typeText_eq_iff_isSpelled marked "void" (by decide)
      have any := typeText_eq_iff_isSpelled marked "any" (by decide)
      rw [returnClause_of_not_holdsOptional regular returns names marked, clauseText_eq_any_iff,
        clauseText_eq_empty_iff, void, any]
      refine ⟨(or_iff_right marked).symm, fun _ => ⟨Iff.rfl, fun valued => ?_⟩⟩
      exact clauseText_of_ne_void (mt void.1 valued)
  · intro builder operation method built
    obtain ⟨regular, returns⟩ := FunctionBuilder.returns_of_build built
    refine ⟨returnClause_ne_empty built, fun names => ⟨fun held => ?_, fun unheld => ?_⟩⟩
    · exact returnClause_of_holdsOptional regular returns (unmarked_responseTask names)
        (holdsOptional_responseTask.2 held)
    · have unmarked : ¬HoldsOptional (responseTask operation) := by
        rw [holdsOptional_responseTask]
        rintro ⟨response, given, held⟩
        exact unheld response given held
      rw [returnClause_of_not_holdsOptional regular returns (unmarked_responseTask names) unmarked,
        clauseText_of_ne_void (typeText_responseTask_ne_void operation), typeText_responseTask]
      rfl

def nestedMethod : Method :=
  { name := "f"
    returnType := some (TypeRef.generic "Dictionary"
      [TypeRef.string, TypeRef.generic "List" [TypeRef.int.orNull]]) }

def listOperation : ApiOperation :=
  { name := "List", method := .get, path := "items"
    response := some (TypeRef.generic "List" [TypeRef.int]) }

theorem returnClause_decided_nested :
    returnClause typeMapper nestedMethod = ": any" ∧
      ∃ method, (⟨typeMapper, true⟩ : FunctionBuilder).build listOperation = .ok method ∧
        returnClause typeMapper method = ": Promise<Array<number>>" := by
  obtain ⟨clauses, responses⟩ := returnClause_decided
  refine ⟨(clauses nestedMethod _ rfl rfl (by decide)).1.2 (.inl (by decide)), _, rfl, ?_⟩
  apply ((responses ⟨typeMapper, true⟩ listOperation _ rfl).2 ?_).2
  · rintro _ ⟨⟩
    decide
  · rintro _ ⟨⟩
    decide

def objectType : TypeRef := { name := "object" }

def objectMethod : Method := { name := "f", returnType := some objectType }

/-- A type can be open without being nullable: any object whatsoever is spelled that way. -/
theorem returnClause_objectMethod :
    (∀ name ∈ objectType.names, Unmarked name) ∧
      ¬(returnClause typeMapper objectMethod = ": any" ↔ HoldsOptional objectType) ∧
      declarationText typeMapper {}
          { kind := .classType, name := "C", members := [.method objectMethod] } =
        .ok "export class C \x7b\n\n    f(): any\x7b\n    \x7d\n\x7d\n" := by
  refine ⟨by decide, ?_, by decide +kernel⟩
  have clause : returnClause typeMapper objectMethod = ": any" := by decide
  have plain : ¬HoldsOptional objectType := by decide
  exact fun decided => plain (decided.1 clause)

end ApiClient.Client
