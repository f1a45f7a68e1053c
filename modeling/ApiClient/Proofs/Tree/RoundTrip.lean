import ApiClient.Proofs.Tree.Parts
import ApiClient.Proofs.Tree.Storage
import ApiClient.TypeScript.Document

/-! Nodes read back from the text of their data.

Of all that a node holds, only the numbers of its literals may lose something in a text: a whole
number has to fit a word, and a double has to be read as it was written.
-/

set_option autoImplicit false

namespace ApiClient.Tree

open ApiClient.Json

/-- A literal whose text stands for its value; a double that is no number has no text. -/
def Literal.IsStorable : Literal → Prop
  | .int value => Numeral.IsWord value
  | .float value => ReadsBack value
  | _ => True

def Expression.IsStorable (expression : Expression) : Prop :=
  ∀ part ∈ expression.parts, ∀ value ∈ part.literal?, value.IsStorable

def Statement.IsStorable (statement : Statement) : Prop :=
  ∀ part ∈ statement.parts, ∀ expression ∈ part.expressions, expression.IsStorable

def Member.IsStorable : Member → Prop
  | .field _ _ init => ∀ expression ∈ init, expression.IsStorable
  | .property _ _ => True
  | .method value => ∀ statement ∈ value.body, statement.IsStorable
  | .snippet _ => True

def Declaration.IsStorable (declaration : Declaration) : Prop :=
  ∀ member ∈ declaration.members, member.IsStorable

theorem Literal.writable_toJson {literal : Literal} (storable : literal.IsStorable) :
    Writable literal.toJson := by
  cases literal with
  | null => exact .null
  | bool value => exact .bool value
  | int value => exact .integer storable
  | float value => exact .double storable
  | string text => exact .string text

theorem writable_unlessEmpty {name : String} {items : List Json}
    (each : ∀ item ∈ items, Writable item) :
    ∀ field ∈ unlessEmpty name items, Writable field.2 := by
  unfold unlessEmpty
  split
  · exact fun _ member => nomatch member
  · exact List.forall_mem_singleton.2 (.array each)

theorem writable_ifPresent {name : String} {value : Option Json}
    (each : ∀ json ∈ value, Writable json) :
    ∀ field ∈ ifPresent name value, Writable field.2 := by
  cases value with
  | none => exact fun _ member => nomatch member
  | some json => exact List.forall_mem_singleton.2 (each json rfl)

namespace TypeRef

@[simp]
theorem writable_toJson (type : TypeRef) : Writable type.toJson := by
  induction type with
  | named name nullable args ih =>
    rw [toJson, toJsonList_eq_map, writable_object_iff, List.forall_mem_append]
    exact ⟨by simp, writable_unlessEmpty (List.forall_mem_map.2 ih)⟩

@[simp]
theorem writable_toJsonList (types : List TypeRef) : Writable (.array (toJsonList types)) := by
  simp [toJsonList_eq_map, writable_array_iff]

end TypeRef

theorem TypeParam.writable_toJson (param : TypeParam) : Writable param.toJson := by
  rw [toJson, writable_object_iff, List.forall_mem_append]
  exact ⟨by simp, writable_unlessEmpty (writable_array_iff.1 (TypeRef.writable_toJsonList _))⟩

namespace Expression

theorem writable_toJsonList {args : List Expression}
    (each : ∀ arg ∈ args, arg.IsStorable → Writable arg.toJson)
    (storable : ∀ part ∈ partsOfArgs args, ∀ value ∈ part.literal?, value.IsStorable) :
    Writable (.array (toJsonList args)) := by
  rw [toJsonList_eq_map]
  exact .array (List.forall_mem_map.2 fun arg member =>
    each arg member (forall_mem_partsOfArgs.1 storable arg member))

theorem writable_toJson {expression : Expression} (storable : expression.IsStorable) :
    Writable expression.toJson := by
  induction expression with
  | argument name => simp [toJson, node]
  | field target name ih =>
    obtain ⟨-, inside⟩ := List.forall_mem_cons.1 storable
    simp [toJson, node, ih inside]
  | call target method args ih each =>
    obtain ⟨-, inside⟩ := List.forall_mem_cons.1 storable
    obtain ⟨first, others⟩ := List.forall_mem_append.1 inside
    simp [toJson, node, ih first, writable_toJsonList each others]
  | methodRef target method typeArgs ih =>
    obtain ⟨-, inside⟩ := List.forall_mem_cons.1 storable
    simp [toJson, node, ih inside]
  | create type args each =>
    obtain ⟨-, inside⟩ := List.forall_mem_cons.1 storable
    simp [toJson, node, writable_toJsonList each inside]
  | parameter name type => simp [toJson, node]
  | literal value =>
    have stored := Literal.writable_toJson (storable _ (List.mem_singleton_self _) value rfl)
    simp [toJson, node, stored]
  | property target name ih =>
    obtain ⟨-, inside⟩ := List.forall_mem_cons.1 storable
    simp [toJson, node, ih inside]
  | snippet text => simp [toJson, node]
  | this => simp [toJson, node]
  | typeName type => simp [toJson, node]
  | variableRef name => simp [toJson, node]
  | unsupported form => simp [toJson, node]

theorem writable_ifPresent_toJson {value : Option Expression}
    (storable : ∀ expression ∈ value, expression.IsStorable) {name : String} :
    ∀ field ∈ ifPresent name (value.map toJson), Writable field.2 := by
  refine writable_ifPresent fun json member => ?_
  obtain ⟨expression, inside, rfl⟩ := Option.map_eq_some_iff.1 member
  exact writable_toJson (storable expression inside)

end Expression

namespace Statement

abbrev AllStorable (parts : List Statement) : Prop :=
  ∀ part ∈ parts, ∀ expression ∈ part.expressions, expression.IsStorable

theorem writable_toJsonList {body : List Statement}
    (each : ∀ statement ∈ body, statement.IsStorable → Writable statement.toJson)
    (storable : AllStorable (partsOfBlock body)) : Writable (.array (toJsonList body)) := by
  rw [toJsonList_eq_map]
  exact .array (List.forall_mem_map.2 fun statement member =>
    each statement member (forall_mem_partsOfBlock.1 storable statement member))

theorem writable_toJsonCatches {clauses : List (CatchClause Statement)}
    (each : ∀ clause ∈ clauses, AllStorable (partsOfBlock clause.body) →
      Writable (.array (toJsonList clause.body)))
    (storable : AllStorable (partsOfCatches clauses)) :
    Writable (.array (toJsonCatches clauses)) := by
  rw [toJsonCatches_eq_map]
  refine .array (List.forall_mem_map.2 fun clause member => ?_)
  have body := each clause member (forall_mem_partsOfCatches.1 storable clause member)
  obtain ⟨localName, statements⟩ := clause
  simp [toJsonCatch, body]

theorem writable_toJson {statement : Statement} (storable : statement.IsStorable) :
    Writable statement.toJson := by
  induction statement with
  | assign left right =>
    have own := storable _ (List.mem_singleton_self _)
    have first := own left (List.mem_cons_self ..)
    have second := own right (List.mem_cons_of_mem _ (List.mem_singleton_self right))
    simp [toJson, node, Expression.writable_toJson first, Expression.writable_toJson second]
  | comment text => simp [toJson, node]
  | branch test thenBody elseBody each others =>
    obtain ⟨own, inside⟩ := List.forall_mem_cons.1 storable
    obtain ⟨body, other⟩ := List.forall_mem_append.1 inside
    have first := Expression.writable_toJson (own test (List.mem_singleton_self test))
    rw [toJson, node, writable_object_iff, ← List.cons_append, List.forall_mem_append]
    refine ⟨by simp [first, writable_toJsonList each body], writable_ifPresent ?_⟩
    intro json member
    cases elseBody with
    | none => cases member
    | some statements =>
      cases member
      exact writable_toJsonList (others statements rfl) other
  | expression value =>
    have own := storable _ (List.mem_singleton_self _) value (List.mem_singleton_self value)
    simp [toJson, node, Expression.writable_toJson own]
  | loop init test step body initial next each =>
    obtain ⟨own, inside⟩ := List.forall_mem_cons.1 storable
    simp only [List.forall_mem_append] at inside
    obtain ⟨⟨first, second⟩, statements⟩ := inside
    have condition := Expression.writable_toJson (own test (List.mem_singleton_self test))
    simp [toJson, node, initial first, condition, next second, writable_toJsonList each statements]
  | returning value =>
    rw [toJson, node, writable_object_iff, List.forall_mem_cons]
    refine ⟨.string _, Expression.writable_ifPresent_toJson fun expression member => ?_⟩
    exact storable _ (List.mem_singleton_self _) expression (Option.mem_toList.2 member)
  | throw value =>
    have own := storable _ (List.mem_singleton_self _) value (List.mem_singleton_self value)
    simp [toJson, node, Expression.writable_toJson own]
  | guarded body catches finallyBody each clauses last =>
    obtain ⟨-, inside⟩ := List.forall_mem_cons.1 storable
    simp only [List.forall_mem_append] at inside
    obtain ⟨⟨first, second⟩, third⟩ := inside
    have handlers := writable_toJsonCatches
      (fun clause member => writable_toJsonList (clauses clause member)) second
    simp [toJson, node, writable_toJsonList each first, handlers, writable_toJsonList last third]
  | declare type name init =>
    rw [toJson, node, writable_object_iff, ← List.cons_append, List.forall_mem_append]
    refine ⟨by simp, Expression.writable_ifPresent_toJson fun expression member => ?_⟩
    exact storable _ (List.mem_singleton_self _) expression (Option.mem_toList.2 member)
  | snippet text => simp [toJson, node]
  | unsupported form => simp [toJson, node]

theorem writable_block {body : List Statement}
    (storable : ∀ statement ∈ body, statement.IsStorable) :
    Writable (.array (toJsonList body)) :=
  writable_toJsonList (fun _ _ => writable_toJson) (forall_mem_partsOfBlock.2 storable)

end Statement

theorem CatchClause.writable_toJson {clause : CatchClause Statement}
    (storable : ∀ statement ∈ clause.body, statement.IsStorable) : Writable clause.toJson := by
  obtain ⟨localName, body⟩ := clause
  simp [toJson, Statement.toJsonCatch, Statement.writable_block storable]

theorem Parameter.writable_toJson (parameter : Parameter) : Writable parameter.toJson := by
  simp [toJson]

theorem Method.writable_toFields {method : Method}
    (storable : ∀ statement ∈ method.body, statement.IsStorable) :
    ∀ field ∈ method.toFields, Writable field.2 := by
  simp only [toFields, List.forall_mem_append]
  refine ⟨⟨⟨?_, writable_ifPresent ?_⟩, ?_⟩, writable_unlessEmpty ?_⟩
  · simp [writable_array_iff, Parameter.writable_toJson]
  · intro json member
    obtain ⟨type, -, rfl⟩ := Option.map_eq_some_iff.1 member
    exact type.writable_toJson
  · simp [Statement.writable_block storable]
  · exact List.forall_mem_map.2 fun line _ => .string line

theorem Member.writable_toJson {member : Member} (storable : member.IsStorable) :
    Writable member.toJson := by
  cases member with
  | field name type init =>
    rw [toJson, node, writable_object_iff, ← List.cons_append, List.forall_mem_append]
    exact ⟨by simp, Expression.writable_ifPresent_toJson storable⟩
  | property name type => simp [toJson, node]
  | method value =>
    rw [toJson, node, writable_object_iff, List.forall_mem_cons]
    exact ⟨.string _, Method.writable_toFields storable⟩
  | snippet text => simp [toJson, node]

theorem Declaration.writable_toJson {declaration : Declaration}
    (storable : declaration.IsStorable) : Writable declaration.toJson := by
  simp only [toJson, writable_object_iff, List.forall_mem_append]
  refine ⟨⟨⟨by simp, writable_unlessEmpty ?_⟩, writable_unlessEmpty ?_⟩, ?_⟩
  · exact List.forall_mem_map.2 fun param _ => param.writable_toJson
  · exact writable_array_iff.1 (TypeRef.writable_toJsonList _)
  · have members : Writable (.array (declaration.members.map Member.toJson)) :=
      .array (List.forall_mem_map.2 fun member inside =>
        Member.writable_toJson (storable member inside))
    simp [members]

inductive NodeKind where
  | declaration
  | member
  | method
  | parameter
  | statement
  | catchClause
  | expression
  | literal
  | type
  | typeParam

inductive Node where
  | declaration (value : Declaration)
  | member (value : Member)
  | method (value : Method)
  | parameter (value : Parameter)
  | statement (value : Statement)
  | catchClause (value : CatchClause Statement)
  | expression (value : Expression)
  | literal (value : Literal)
  | type (value : TypeRef)
  | typeParam (value : TypeParam)

namespace Node

def kind : Node → NodeKind
  | .declaration _ => .declaration
  | .member _ => .member
  | .method _ => .method
  | .parameter _ => .parameter
  | .statement _ => .statement
  | .catchClause _ => .catchClause
  | .expression _ => .expression
  | .literal _ => .literal
  | .type _ => .type
  | .typeParam _ => .typeParam

def toJson : Node → Json
  | .declaration value => value.toJson
  | .member value => value.toJson
  | .method value => value.toJson
  | .parameter value => value.toJson
  | .statement value => value.toJson
  | .catchClause value => value.toJson
  | .expression value => value.toJson
  | .literal value => value.toJson
  | .type value => value.toJson
  | .typeParam value => value.toJson

def IsStorable : Node → Prop
  | .declaration value => value.IsStorable
  | .member value => value.IsStorable
  | .method value => ∀ statement ∈ value.body, statement.IsStorable
  | .parameter _ => True
  | .statement value => value.IsStorable
  | .catchClause value => ∀ statement ∈ value.body, statement.IsStorable
  | .expression value => value.IsStorable
  | .literal value => value.IsStorable
  | .type _ => True
  | .typeParam _ => True

def dataText (node : Node) : String :=
  node.toJson.render

end Node

namespace NodeKind

def read? (kind : NodeKind) (medium : Medium) (json : Json) : Option Node :=
  match kind with
  | .declaration => (Declaration.read? medium json).map .declaration
  | .member => (Member.read? medium json).map .member
  | .method => (Method.read? medium json).map .method
  | .parameter => (Parameter.read? medium json).map .parameter
  | .statement => (Statement.read? medium json).map .statement
  | .catchClause => (CatchClause.read? medium json).map .catchClause
  | .expression => (Expression.read? medium json).map .expression
  | .literal => (Literal.ofJson? json).map .literal
  | .type => (TypeRef.read? medium json).map .type
  | .typeParam => (TypeParam.read? medium json).map .typeParam

def ofJson? (kind : NodeKind) : Json → Option Node :=
  kind.read? .text

def parse? (kind : NodeKind) (text : String) : Option Node :=
  Json.parse? TypeScript.nestingLimit text >>= kind.ofJson?

end NodeKind

namespace Node

theorem read?_toJson (node : Node) (medium : Medium) :
    node.kind.read? medium node.toJson = some node := by
  cases node with
  | declaration value => simp [kind, toJson, NodeKind.read?, Declaration.read?_toJson]
  | member value => simp [kind, toJson, NodeKind.read?, Member.read?_toJson]
  | method value => simp [kind, toJson, NodeKind.read?, Method.read?_toJson]
  | parameter value => simp [kind, toJson, NodeKind.read?, Parameter.read?_toJson]
  | statement value => simp [kind, toJson, NodeKind.read?]
  | catchClause value => simp [kind, toJson, NodeKind.read?, CatchClause.read?_toJson]
  | expression value => simp [kind, toJson, NodeKind.read?]
  | literal value => simp [kind, toJson, NodeKind.read?]
  | type value => simp [kind, toJson, NodeKind.read?]
  | typeParam value => simp [kind, toJson, NodeKind.read?, TypeParam.read?_toJson]

theorem writable_toJson {node : Node} (storable : node.IsStorable) :
    Writable node.toJson := by
  cases node with
  | declaration value => exact Declaration.writable_toJson storable
  | member value => exact Member.writable_toJson storable
  | method value => exact .object (Method.writable_toFields storable)
  | parameter value => exact value.writable_toJson
  | statement value => exact Statement.writable_toJson storable
  | catchClause value => exact CatchClause.writable_toJson storable
  | expression value => exact Expression.writable_toJson storable
  | literal value => exact Literal.writable_toJson storable
  | type value => exact value.writable_toJson
  | typeParam value => exact value.writable_toJson

/-- A node is read back from the text in which it is stored. -/
theorem parse?_dataText (node : Node) (storable : node.IsStorable)
    (shallow : node.toJson.depth ≤ TypeScript.nestingLimit) :
    node.kind.parse? node.dataText = some node := by
  rw [NodeKind.parse?, dataText, parse?_render (writable_toJson storable) shallow]
  exact node.read?_toJson .text

/-- Numbers that are equal but of different types, an alternative without statements, and a
variable that starts as null next to one that has no start. -/
def lookalikes : Node :=
  .method {
    name := "look alike\n"
    body := [
      .branch (.literal (.float (.ofNat 2))) [.throw (.int 2)] (some []),
      .branch (.literal (.float (.zero true))) [] none,
      .declare TypeRef.int.orNull "a" (some (.literal .null)),
      .declare TypeRef.int "b" none] }

theorem parse?_dataText_lookalikes :
    lookalikes.kind.parse? lookalikes.dataText = some lookalikes := by
  refine parse?_dataText lookalikes ?_ (by decide +kernel)
  have two : ReadsBack (.ofNat 2) := ⟨"2.0", by decide +kernel, by rfl⟩
  have zero : ReadsBack (.zero true) := ⟨"-0.0", by decide +kernel, by rfl⟩
  have word : Numeral.IsWord 2 := by decide
  simp [lookalikes, IsStorable, Statement.IsStorable, Statement.parts, partsOfBlock, partsOfElse,
    Statement.expressions, Expression.IsStorable, Expression.parts, Expression.literal?,
    Expression.int, Literal.IsStorable, two, zero, word]

end Node

end ApiClient.Tree
