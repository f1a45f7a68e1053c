import ApiClient.Proofs.Json.Fields
import ApiClient.Proofs.Json.RoundTrip
import ApiClient.Proofs.Tree.Induction
import ApiClient.Tree.Declaration

/-! Nodes read back from their data.

A node that holds nodes of its own kind is read with a bound on the nesting of its data, and what is
inside it is nested less. A part that may be left out is written in two ways, so it splits a proof
in two.
-/

set_option autoImplicit false

namespace ApiClient.Tree

open ApiClient.Json

theorem listOf?_within {α : Type} {read : Json → Option α} {write : α → Json} {values : List α}
    {bound : Nat} (nested : (Json.array (values.map write)).depth ≤ bound)
    (each : ∀ value ∈ values, (write value).depth ≤ bound → read (write value) = some value) :
    listOf? read (.array (values.map write)) = some values := by
  refine listOf?_map fun value member => each value member ?_
  exact ((depth_lt_of_mem_items (List.mem_map_of_mem member)).trans_le nested).le

variable (medium : Medium)

namespace TypeRef

theorem toJsonList_eq_map (types : List TypeRef) : toJsonList types = types.map toJson := by
  induction types with
  | nil => rfl
  | cons type rest ih => rw [toJsonList, ih, List.map_cons]

theorem toJson_ne_null (type : TypeRef) : type.toJson ≠ .null := by
  cases type
  exact Json.noConfusion

theorem readWithin_toJson (type : TypeRef) {depth : Nat} (nested : type.toJson.depth ≤ depth) :
    readWithin depth medium type.toJson = some type := by
  induction type generalizing depth with
  | named name nullable args ih =>
    rw [toJson, toJsonList_eq_map] at nested ⊢
    obtain ⟨inner, rfl⟩ : ∃ inner, depth = inner + 1 :=
      Nat.exists_eq_succ_of_ne_zero (by rw [Json.depth] at nested; omega)
    cases args with
    | nil => simp [readWithin, readNode, unlessEmpty, record?_object, string?, bool?]
    | cons arg args =>
      have listed : ("args", Json.array ((arg :: args).map toJson)) ∈
          [("name", .string name), ("nullable", .bool nullable)] ++
            unlessEmpty "args" ((arg :: args).map toJson) := by simp [unlessEmpty]
      have list : listOf? (readWithin inner medium) (.array ((arg :: args).map toJson)) =
          some (arg :: args) :=
        listOf?_within (Nat.lt_succ_iff.1 ((depth_lt_of_mem_fields listed).trans_le nested))
          fun type member => ih type member
      simp only [List.map_cons] at list
      simp [readWithin, readNode, unlessEmpty, record?_object, string?, bool?, list]

@[simp]
theorem read?_toJson (type : TypeRef) : read? medium type.toJson = some type :=
  readWithin_toJson medium type le_rfl

@[simp]
theorem listOf?_toJsonList (types : List TypeRef) :
    listOf? (read? medium) (.array (toJsonList types)) = some types := by
  rw [toJsonList_eq_map]
  exact listOf?_map fun type _ => read?_toJson medium type

end TypeRef

namespace TypeParam

theorem read?_toJson (param : TypeParam) : read? medium param.toJson = some param := by
  obtain ⟨name, bounds⟩ := param
  cases bounds with
  | nil => simp [read?, toJson, TypeRef.toJsonList, unlessEmpty, record?_object, string?]
  | cons bound bounds =>
    have list := TypeRef.listOf?_toJsonList medium (bound :: bounds)
    rw [TypeRef.toJsonList] at list
    simp [read?, toJson, TypeRef.toJsonList, unlessEmpty, record?_object, string?, list]

end TypeParam

namespace Literal

@[simp]
theorem ofJson?_toJson (literal : Literal) : ofJson? literal.toJson = some literal := by
  cases literal <;> rfl

end Literal

namespace ExpressionForm

@[simp]
theorem ofName?_name (form : ExpressionForm) : ofName? form.name = some form := by
  cases form <;> decide

end ExpressionForm

namespace Expression

theorem toJsonList_eq_map (expressions : List Expression) :
    toJsonList expressions = expressions.map toJson := by
  induction expressions with
  | nil => rfl
  | cons expression rest ih => rw [toJsonList, ih, List.map_cons]

/-- An initializer that is the literal null is not taken for one that is left out. -/
theorem toJson_ne_null (expression : Expression) : expression.toJson ≠ .null := by
  cases expression <;> exact Json.noConfusion

theorem readWithin_node {variant : String} {fields : Fields} {depth : Nat}
    {expression : Expression} (nested : (node variant fields).depth ≤ depth)
    (untagged : "expr" ∉ fields.map Prod.fst)
    (inside : ∀ bound, (∀ field ∈ fields, field.2.depth ≤ bound) →
      readVariant (readWithin bound .held) variant (.object fields) = some expression) :
    readWithin depth medium (node variant fields) = some expression := by
  obtain ⟨bound, rfl⟩ : ∃ bound, depth = bound + 1 :=
    Nat.exists_eq_succ_of_ne_zero (by rw [node, Json.depth] at nested; omega)
  have below : ∀ field ∈ fields, field.2.depth ≤ bound := fun field member =>
    Nat.lt_succ_iff.1 ((depth_lt_of_mem_fields (List.mem_cons_of_mem _ member)).trans_le nested)
  simp [readWithin, readNode, node, tagged?_object _ untagged, inside bound below]

theorem listOf?_toJsonList {args : List Expression} {bound : Nat}
    (nested : (Json.array (toJsonList args)).depth ≤ bound)
    (each : ∀ arg ∈ args, ∀ (medium : Medium) {depth : Nat}, arg.toJson.depth ≤ depth →
      readWithin depth medium arg.toJson = some arg) :
    listOf? (readWithin bound .held) (.array (toJsonList args)) = some args := by
  rw [toJsonList_eq_map] at nested ⊢
  exact listOf?_within nested fun arg member => each arg member .held

theorem readWithin_toJson (expression : Expression) {depth : Nat}
    (nested : expression.toJson.depth ≤ depth) :
    readWithin depth medium expression.toJson = some expression := by
  induction expression generalizing depth medium with
  | argument name =>
    refine readWithin_node medium nested (by simp) fun bound below => ?_
    simp [readVariant, record?_object, string?]
  | field target name ih =>
    refine readWithin_node medium nested (by simp) fun bound below => ?_
    have target := ih .held (below ("target", _) (by simp))
    simp [readVariant, record?_object, string?, target]
  | call target method args ih each =>
    refine readWithin_node medium nested (by simp) fun bound below => ?_
    have target := ih .held (below ("target", _) (by simp))
    have list := listOf?_toJsonList (below ("args", _) (by simp)) each
    simp [readVariant, record?_object, string?, target, list]
  | methodRef target method typeArgs ih =>
    refine readWithin_node medium nested (by simp) fun bound below => ?_
    have target := ih .held (below ("target", _) (by simp))
    simp [readVariant, record?_object, string?, target]
  | create type args each =>
    refine readWithin_node medium nested (by simp) fun bound below => ?_
    have list := listOf?_toJsonList (below ("args", _) (by simp)) each
    simp [readVariant, record?_object, list]
  | parameter name type =>
    refine readWithin_node medium nested (by simp) fun bound below => ?_
    simp [readVariant, record?_object, string?]
  | literal value =>
    refine readWithin_node medium nested (by simp) fun bound below => ?_
    simp [readVariant, record?_object]
  | property target name ih =>
    refine readWithin_node medium nested (by simp) fun bound below => ?_
    have target := ih .held (below ("target", _) (by simp))
    simp [readVariant, record?_object, string?, target]
  | snippet text =>
    refine readWithin_node medium nested (by simp) fun bound below => ?_
    simp [readVariant, record?_object, string?]
  | this =>
    refine readWithin_node medium nested (by simp) fun bound below => ?_
    simp [readVariant, record?_object]
  | typeName type =>
    refine readWithin_node medium nested (by simp) fun bound below => ?_
    simp [readVariant, record?_object]
  | variableRef name =>
    refine readWithin_node medium nested (by simp) fun bound below => ?_
    simp [readVariant, record?_object, string?]
  | unsupported form =>
    refine readWithin_node medium nested (by simp) fun bound below => ?_
    simp [readVariant, record?_object]

@[simp]
theorem read?_toJson (expression : Expression) : read? medium expression.toJson = some expression :=
  readWithin_toJson medium expression le_rfl

end Expression

namespace StatementForm

@[simp]
theorem ofName?_name (form : StatementForm) : ofName? form.name = some form := by
  cases form <;> decide

end StatementForm

namespace Statement

theorem toJsonList_eq_map (statements : List Statement) :
    toJsonList statements = statements.map toJson := by
  induction statements with
  | nil => rfl
  | cons statement rest ih => rw [toJsonList, ih, List.map_cons]

theorem toJsonCatches_eq_map (clauses : List (CatchClause Statement)) :
    toJsonCatches clauses = clauses.map toJsonCatch := by
  induction clauses with
  | nil => rfl
  | cons clause rest ih => rw [toJsonCatches, ih, List.map_cons]

theorem readWithin_node {variant : String} {fields : Fields} {depth : Nat}
    {statement : Statement} (nested : (node variant fields).depth ≤ depth)
    (untagged : "stmt" ∉ fields.map Prod.fst)
    (inside : ∀ bound, (∀ field ∈ fields, field.2.depth ≤ bound) →
      readVariant (readWithin bound .held) variant (.object fields) = some statement) :
    readWithin depth medium (node variant fields) = some statement := by
  obtain ⟨bound, rfl⟩ : ∃ bound, depth = bound + 1 :=
    Nat.exists_eq_succ_of_ne_zero (by rw [node, Json.depth] at nested; omega)
  have below : ∀ field ∈ fields, field.2.depth ≤ bound := fun field member =>
    Nat.lt_succ_iff.1 ((depth_lt_of_mem_fields (List.mem_cons_of_mem _ member)).trans_le nested)
  simp [readWithin, readNode, node, tagged?_object _ untagged, inside bound below]

theorem listOf?_toJsonList {body : List Statement} {bound : Nat}
    (nested : (Json.array (toJsonList body)).depth ≤ bound)
    (each : ∀ statement ∈ body, ∀ (medium : Medium) {depth : Nat},
      statement.toJson.depth ≤ depth → readWithin depth medium statement.toJson = some statement) :
    listOf? (readWithin bound .held) (.array (toJsonList body)) = some body := by
  rw [toJsonList_eq_map] at nested ⊢
  exact listOf?_within nested fun statement member => each statement member .held

theorem readCatch_toJsonCatch {read : Json → Option Statement} (clause : CatchClause Statement)
    (list : listOf? read (.array (toJsonList clause.body)) = some clause.body) :
    readCatch medium read (toJsonCatch clause) = some clause := by
  obtain ⟨localName, body⟩ := clause
  simp [readCatch, toJsonCatch, record?_object, string?, list]

theorem listOf?_toJsonCatches {clauses : List (CatchClause Statement)} {bound : Nat}
    (nested : (Json.array (toJsonCatches clauses)).depth ≤ bound)
    (each : ∀ clause ∈ clauses, ∀ statement ∈ clause.body, ∀ (medium : Medium) {depth : Nat},
      statement.toJson.depth ≤ depth → readWithin depth medium statement.toJson = some statement) :
    listOf? (readCatch .held (readWithin bound .held)) (.array (toJsonCatches clauses)) =
      some clauses := by
  rw [toJsonCatches_eq_map] at nested ⊢
  refine listOf?_within nested fun clause member shallow => readCatch_toJsonCatch _ clause ?_
  obtain ⟨localName, body⟩ := clause
  have listed : ("body", Json.array (toJsonList body)) ∈
      [("local_name", .string localName), ("body", .array (toJsonList body))] := by simp
  exact listOf?_toJsonList ((depth_lt_of_mem_fields listed).le.trans shallow) (each _ member)

theorem readWithin_toJson (statement : Statement) {depth : Nat}
    (nested : statement.toJson.depth ≤ depth) :
    readWithin depth medium statement.toJson = some statement := by
  -- nodes of other kinds are read with a bound of their own, only statements use this one
  induction statement generalizing depth medium with
  | assign left right =>
    refine readWithin_node medium nested (by simp) fun bound below => ?_
    simp [readVariant, record?_object]
  | comment text =>
    refine readWithin_node medium nested (by simp) fun bound below => ?_
    simp [readVariant, record?_object, string?]
  | branch test thenBody elseBody each others =>
    cases elseBody with
    | none =>
      -- no field stands for an alternative that is missing, an array for one without statements
      refine readWithin_node medium nested (by simp [ifPresent, toJsonBlock]) fun bound below => ?_
      have list := listOf?_toJsonList (below ("then_body", _) (by simp)) each
      simp [readVariant, toJsonBlock, ifPresent, record?_object, list,
        Fields.optional?_cons_of_ne]
    | some body =>
      refine readWithin_node medium nested (by simp [ifPresent, toJsonBlock]) fun bound below => ?_
      have list := listOf?_toJsonList (below ("then_body", _) (by simp)) each
      have other := listOf?_toJsonList
        (below ("else_body", _) (by simp [ifPresent, toJsonBlock])) (others body rfl)
      simp [readVariant, toJsonBlock, ifPresent, record?_object, list, other,
        Fields.optional?_cons_of_ne, Fields.optional?_cons_self]
  | expression value =>
    refine readWithin_node medium nested (by simp) fun bound below => ?_
    simp [readVariant, record?_object]
  | loop init test step body first next each =>
    refine readWithin_node medium nested (by simp) fun bound below => ?_
    have init := first .held (below ("init", _) (by simp))
    have step := next .held (below ("increment", _) (by simp))
    have list := listOf?_toJsonList (below ("body", _) (by simp)) each
    simp [readVariant, record?_object, init, step, list]
  | returning value =>
    refine readWithin_node medium nested (by cases value <;> simp [ifPresent]) fun bound below => ?_
    cases value with
    | none => simp [readVariant, ifPresent, record?_object]
    | some value =>
      simp [readVariant, ifPresent, record?_object, Fields.optional?_cons_self,
        Expression.toJson_ne_null]
  | throw value =>
    refine readWithin_node medium nested (by simp) fun bound below => ?_
    simp [readVariant, record?_object]
  | guarded body catches finallyBody each clauses last =>
    refine readWithin_node medium nested (by simp) fun bound below => ?_
    have list := listOf?_toJsonList (below ("try_body", _) (by simp)) each
    have handlers := listOf?_toJsonCatches (below ("catches", _) (by simp)) clauses
    have final := listOf?_toJsonList (below ("finally_body", _) (by simp)) last
    simp [readVariant, record?_object, list, handlers, final]
  | declare type name init =>
    refine readWithin_node medium nested (by cases init <;> simp [ifPresent]) fun bound below => ?_
    cases init with
    | none =>
      simp [readVariant, ifPresent, record?_object, string?, Fields.optional?_cons_of_ne]
    | some init =>
      simp [readVariant, ifPresent, record?_object, string?, Fields.optional?_cons_of_ne,
        Fields.optional?_cons_self, Expression.toJson_ne_null]
  | snippet text =>
    refine readWithin_node medium nested (by simp) fun bound below => ?_
    simp [readVariant, record?_object, string?]
  | unsupported form =>
    refine readWithin_node medium nested (by simp) fun bound below => ?_
    simp [readVariant, record?_object]

@[simp]
theorem read?_toJson (statement : Statement) : read? medium statement.toJson = some statement :=
  readWithin_toJson medium statement le_rfl

@[simp]
theorem listOf?_read?_toJsonList (body : List Statement) :
    listOf? (read? medium) (.array (toJsonList body)) = some body := by
  rw [toJsonList_eq_map]
  exact listOf?_map fun statement _ => read?_toJson medium statement

end Statement

namespace CatchClause

theorem read?_toJson (clause : CatchClause Statement) : read? medium clause.toJson = some clause :=
  Statement.readCatch_toJsonCatch medium clause
    (Statement.listOf?_read?_toJsonList medium clause.body)

end CatchClause

namespace Parameter

theorem read?_toJson (parameter : Parameter) : read? medium parameter.toJson = some parameter := by
  simp [read?, toJson, record?_object, string?]

end Parameter

namespace Method

theorem listOf?_toJson_parameters (parameters : List Parameter) :
    listOf? (Parameter.read? medium) (.array (parameters.map Parameter.toJson)) =
      some parameters :=
  listOf?_map fun parameter _ => parameter.read?_toJson medium

theorem listOf?_doc (lines : List String) :
    listOf? string? (.array (lines.map Json.string)) = some lines :=
  listOf?_map fun _ _ => rfl

theorem read?_toJson (method : Method) : read? medium method.toJson = some method := by
  obtain ⟨name, isConstructor, parameters, returnType, body, doc⟩ := method
  have signature := listOf?_toJson_parameters medium parameters
  have lines := listOf?_doc doc
  -- a return type that is missing and documentation without lines have no field
  cases returnType <;> cases doc <;>
    simp_all [read?, toJson, toFields, fieldNames, unlessEmpty, ifPresent, record?_object,
      string?, bool?, Fields.optional?_cons_of_ne, Fields.optional?_cons_self,
      TypeRef.toJson_ne_null]

end Method

namespace Member

theorem read?_node {variant : String} {fields : Fields}
    (untagged : "member" ∉ fields.map Prod.fst) :
    read? medium (node variant fields) = readVariant variant (.object fields) := by
  simp [read?, node, tagged?_object _ untagged]

theorem read?_toJson (member : Member) : read? medium member.toJson = some member := by
  cases member with
  | field name type init =>
    rw [toJson, read?_node _ (by cases init <;> simp [ifPresent])]
    cases init <;>
      simp [readVariant, ifPresent, record?_object, string?, Fields.optional?_cons_of_ne,
        Fields.optional?_cons_self, Expression.toJson_ne_null]
  | property name type =>
    rw [toJson, read?_node _ (by simp)]
    simp [readVariant, record?_object, string?]
  | method value =>
    have read := value.read?_toJson .held
    obtain ⟨name, isConstructor, parameters, returnType, body, doc⟩ := value
    rw [toJson, read?_node _
      (by cases returnType <;> cases doc <;> simp [Method.toFields, ifPresent, unlessEmpty])]
    rw [Method.toJson] at read
    simp [readVariant, read]
  | snippet text =>
    rw [toJson, read?_node _ (by simp)]
    simp [readVariant, record?_object, string?]

end Member

namespace Declaration

variable {medium} in
/-- The first item of an array that is a declaration is the word for its kind. -/
theorem read?_array {items : List Json}
    (wordless : ∀ first ∈ items.head?, first.word? medium = none) :
    read? medium (.array items) = none := by
  rw [read?, record?]
  split
  · cases items with
    | nil => rfl
    | cons first rest => simp [named?, wordless first rfl]
  · rfl

theorem word?_toJson (declaration : Declaration) : declaration.toJson.word? medium = none :=
  word?_object_cons_cons ..

theorem ofKeyword?_keyword (kind : DeclarationKind) :
    DeclarationKind.ofKeyword? kind.keyword = some kind := by
  cases kind <;> rfl

theorem exported?_word (exported : Bool) :
    exported? (if exported then "public" else "private") = some exported := by
  cases exported <;> rfl

theorem read?_toJson (declaration : Declaration) :
    read? medium declaration.toJson = some declaration := by
  obtain ⟨kind, name, typeParams, bases, exported, members⟩ := declaration
  have params : listOf? (TypeParam.read? medium) (.array (typeParams.map TypeParam.toJson)) =
      some typeParams := listOf?_map fun param _ => param.read?_toJson medium
  have above := TypeRef.listOf?_toJsonList medium bases
  have inside : listOf? (Member.read? medium) (.array (members.map Member.toJson)) =
      some members := listOf?_map fun member _ => member.read?_toJson medium
  -- lists without elements have no field
  cases typeParams <;> cases bases <;>
    simp_all [read?, toJson, TypeRef.toJsonList, unlessEmpty, record?_object, string?,
      ofKeyword?_keyword, exported?_word]

end Declaration

end ApiClient.Tree
