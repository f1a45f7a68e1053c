import ApiClient.Tree.Declaration

/-! Types, expressions and statements with everything of their own kind that is inside them.

A property of all nodes of a tree is stated over its parts. A statement holds expressions of its own
besides the ones that its blocks hold.
-/

set_option autoImplicit false

namespace ApiClient.Tree

mutual

def TypeRef.parts : TypeRef → List TypeRef
  | ⟨name, nullable, args⟩ => ⟨name, nullable, args⟩ :: partsOfTypes args

def partsOfTypes : List TypeRef → List TypeRef
  | [] => []
  | type :: rest => type.parts ++ partsOfTypes rest

end

mutual

def Expression.parts : Expression → List Expression
  | .argument name => [.argument name]
  | .field target name => .field target name :: target.parts
  | .call target method args => .call target method args :: (target.parts ++ partsOfArgs args)
  | .methodRef target method typeArgs => .methodRef target method typeArgs :: target.parts
  | .create type args => .create type args :: partsOfArgs args
  | .parameter name type => [.parameter name type]
  | .literal value => [.literal value]
  | .property target name => .property target name :: target.parts
  | .snippet text => [.snippet text]
  | .this => [.this]
  | .typeName type => [.typeName type]
  | .variable name => [.variable name]
  | .unsupported form => [.unsupported form]

def partsOfArgs : List Expression → List Expression
  | [] => []
  | arg :: rest => arg.parts ++ partsOfArgs rest

end

def Statement.expressions : Statement → List Expression
  | .assign left right => [left, right]
  | .comment _ => []
  | .branch test _ _ => [test]
  | .expression value => [value]
  | .loop _ test _ _ => [test]
  | .returning value => value.toList
  | .throw value => [value]
  | .guarded _ _ _ => []
  | .declare _ _ init => init.toList
  | .snippet _ => []
  | .unsupported _ => []

mutual

def Statement.parts : Statement → List Statement
  | .assign left right => [.assign left right]
  | .comment text => [.comment text]
  | .branch test thenBody elseBody =>
    .branch test thenBody elseBody :: (partsOfBlock thenBody ++ partsOfElse elseBody)
  | .expression value => [.expression value]
  | .loop init test step body =>
    .loop init test step body :: (init.parts ++ step.parts ++ partsOfBlock body)
  | .returning value => [.returning value]
  | .throw value => [.throw value]
  | .guarded body catches finallyBody =>
    .guarded body catches finallyBody ::
      (partsOfBlock body ++ partsOfCatches catches ++ partsOfBlock finallyBody)
  | .declare type name init => [.declare type name init]
  | .snippet text => [.snippet text]
  | .unsupported form => [.unsupported form]

def partsOfBlock : List Statement → List Statement
  | [] => []
  | statement :: rest => statement.parts ++ partsOfBlock rest

def partsOfElse : Option (List Statement) → List Statement
  | none => []
  | some body => partsOfBlock body

def partsOfCatches : List (CatchClause Statement) → List Statement
  | [] => []
  | ⟨_, body⟩ :: rest => partsOfBlock body ++ partsOfCatches rest

end

theorem forall_mem_partsOfTypes {property : TypeRef → Prop} {types : List TypeRef} :
    (∀ part ∈ partsOfTypes types, property part) ↔
      ∀ type ∈ types, ∀ part ∈ type.parts, property part := by
  induction types with
  | nil => simp [partsOfTypes]
  | cons type rest ih => rw [partsOfTypes, List.forall_mem_append, List.forall_mem_cons, ih]

theorem forall_mem_partsOfArgs {property : Expression → Prop} {args : List Expression} :
    (∀ part ∈ partsOfArgs args, property part) ↔
      ∀ arg ∈ args, ∀ part ∈ arg.parts, property part := by
  induction args with
  | nil => simp [partsOfArgs]
  | cons arg rest ih => rw [partsOfArgs, List.forall_mem_append, List.forall_mem_cons, ih]

section Statements

variable {property : Statement → Prop}

theorem forall_mem_partsOfBlock {body : List Statement} :
    (∀ part ∈ partsOfBlock body, property part) ↔
      ∀ statement ∈ body, ∀ part ∈ statement.parts, property part := by
  induction body with
  | nil => simp [partsOfBlock]
  | cons statement rest ih => rw [partsOfBlock, List.forall_mem_append, List.forall_mem_cons, ih]

theorem forall_mem_partsOfCatches {clauses : List (CatchClause Statement)} :
    (∀ part ∈ partsOfCatches clauses, property part) ↔
      ∀ clause ∈ clauses, ∀ part ∈ partsOfBlock clause.body, property part := by
  induction clauses with
  | nil => simp [partsOfCatches]
  | cons clause rest ih => rw [partsOfCatches, List.forall_mem_append, List.forall_mem_cons, ih]

end Statements

end ApiClient.Tree
