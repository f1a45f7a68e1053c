import ApiClient.Tree.Statement

/-! Induction over types, expressions and statements. A list inside a node gives the hypothesis for
each of its elements, so a proof has one case for each kind of node and none for lists. -/

set_option autoImplicit false

namespace ApiClient.Tree

@[elab_as_elim, induction_eliminator]
theorem TypeRef.induct {motive : TypeRef → Prop}
    (named : ∀ name nullable args, (∀ arg ∈ args, motive arg) → motive ⟨name, nullable, args⟩)
    (type : TypeRef) : motive type :=
  @TypeRef.rec motive (fun args => ∀ arg ∈ args, motive arg) named
    (fun _ member => nomatch member)
    (fun _ _ head tail => List.forall_mem_cons.2 ⟨head, tail⟩)
    type

@[elab_as_elim, induction_eliminator]
theorem Expression.induct {motive : Expression → Prop}
    (argument : ∀ name, motive (.argument name))
    (field : ∀ target name, motive target → motive (.field target name))
    (call : ∀ target method args, motive target → (∀ arg ∈ args, motive arg) →
      motive (.call target method args))
    (methodRef : ∀ target method typeArgs, motive target →
      motive (.methodRef target method typeArgs))
    (create : ∀ type args, (∀ arg ∈ args, motive arg) → motive (.create type args))
    (parameter : ∀ name type, motive (.parameter name type))
    (literal : ∀ value, motive (.literal value))
    (property : ∀ target name, motive target → motive (.property target name))
    (snippet : ∀ text, motive (.snippet text))
    (this : motive .this)
    (typeName : ∀ type, motive (.typeName type))
    (variableRef : ∀ name, motive (.variable name))
    (unsupported : ∀ form, motive (.unsupported form))
    (expression : Expression) : motive expression :=
  @Expression.rec motive (fun args => ∀ arg ∈ args, motive arg)
    argument field call methodRef create parameter literal property snippet this typeName
    variableRef unsupported
    (fun _ member => nomatch member)
    (fun _ _ head tail => List.forall_mem_cons.2 ⟨head, tail⟩)
    expression

@[elab_as_elim, induction_eliminator]
theorem Statement.induct {motive : Statement → Prop}
    (assign : ∀ left right, motive (.assign left right))
    (comment : ∀ text, motive (.comment text))
    (branch : ∀ test thenBody elseBody, (∀ statement ∈ thenBody, motive statement) →
      (∀ body ∈ elseBody, ∀ statement ∈ body, motive statement) →
      motive (.branch test thenBody elseBody))
    (expression : ∀ value, motive (.expression value))
    (loop : ∀ init test step body, motive init → motive step →
      (∀ statement ∈ body, motive statement) → motive (.loop init test step body))
    (returning : ∀ value, motive (.returning value))
    (throw : ∀ value, motive (.throw value))
    (guarded : ∀ body catches finallyBody, (∀ statement ∈ body, motive statement) →
      (∀ clause ∈ catches, ∀ statement ∈ clause.body, motive statement) →
      (∀ statement ∈ finallyBody, motive statement) →
      motive (.guarded body catches finallyBody))
    (declare : ∀ type name init, motive (.declare type name init))
    (snippet : ∀ text, motive (.snippet text))
    (unsupported : ∀ form, motive (.unsupported form))
    (statement : Statement) : motive statement :=
  @Statement.rec motive (fun body => ∀ statement ∈ body, motive statement)
    (fun elseBody => ∀ body ∈ elseBody, ∀ statement ∈ body, motive statement)
    (fun catches => ∀ clause ∈ catches, ∀ statement ∈ clause.body, motive statement)
    (fun clause => ∀ statement ∈ clause.body, motive statement)
    assign comment branch expression loop returning throw guarded declare snippet unsupported
    (fun _ member => nomatch member)
    (fun _ _ head tail => List.forall_mem_cons.2 ⟨head, tail⟩)
    (fun _ member => nomatch member)
    (fun _ body _ member => Option.some.inj member ▸ body)
    (fun _ member => nomatch member)
    (fun _ _ head tail => List.forall_mem_cons.2 ⟨head, tail⟩)
    (fun _ _ body => body)
    statement

end ApiClient.Tree
